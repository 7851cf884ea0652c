import FirewallLLM.CivilDays
import FirewallLLM.Metering
import FirewallLLM.RedisMap
import FirewallLLM.Runs

/-! # The metering store on a server where keys expire

`ADMIT_LUA`, `SETTLE_LUA` and `INCRBY` command by command, on a server that knows the time.  A
counter expires 48 hours after a script has touched it, a reservation after ten minutes.

`expiry_invisible`: for the keys of the gateway this is the store of which nothing expires, but
for the settles that come later than ten minutes: they are dropped, and the reserve stays.  The
scripts add up alike on both sides, with integers here, so that the range of numbers plays no
part. -/

namespace FirewallLLM.Quota.Expiry

open RedisMap (Server Entry)
open Decimal (intText readInt)

/-! ### The scripts -/

/-- `tonumber(redis.call('GET', key) or '0')`. -/
def number (r : Server) (now : ℤ) (key : String) : ℤ := (r.get now key.toList).elim 0 readInt

/-- The increments of `ADMIT_LUA`. -/
def raise (op : AdmitOp ℤ) (now : ℤ) (r : Server) : Server :=
  [(op.cTokensKey, op.reserve), (op.cReqKey, 1), (op.pTokensKey, op.reserve), (op.pReqKey, 1),
    (op.mTokensKey, op.reserve)].foldl (fun r x => (r.incrby now x.1.toList x.2).1) r

/-- The five counters of an admission, in the order of `KEYS`. -/
def keysOf (op : AdmitOp ℤ) : List String :=
  [op.cTokensKey, op.cReqKey, op.pTokensKey, op.pReqKey, op.mTokensKey]

/-- `ADMIT_LUA` at the time `now`. -/
def admitAt (op : AdmitOp ℤ) (now : ℤ) (r : Server) : (String × ℤ) × Server :=
  let ct := number r now op.cTokensKey
  let cr := number r now op.cReqKey
  let pt := number r now op.pTokensKey
  if op.cTokensLimit ≥ 0 ∧ ct + op.reserve > op.cTokensLimit then (("tokens", ct), r)
  else if op.cReqLimit ≥ 0 ∧ cr + 1 > op.cReqLimit then (("requests", cr), r)
  else if op.pTokensLimit ≥ 0 ∧ pt + op.reserve > op.pTokensLimit then
    (("provider_tokens", pt), r)
  else
    let r : Server := (keysOf op).foldl (fun r key => r.expire now key.toList op.bucketTtlSecs)
      (raise op now r)
    (("ok", op.reserve),
      r.setEx now op.reservationKey.toList "open".toList op.reservationTtlSecs)

/-- `SETTLE_LUA` at the time `now`. -/
def settleAt (req : SettleReq ℤ) (now : ℤ) (r : Server) : ℤ × Server :=
  if r.get now req.reservationKey.toList ≠ some "open".toList then (0, r)
  else
    (1, (req.tokenKeys.take 3).foldl (fun r key =>
        let v := number r now key + req.delta
        r.setEx now key.toList (intText (if v < 0 then 0 else v)) req.bucketTtlSecs)
      (r.setKeep now req.reservationKey.toList "settled".toList))

/-! ### Commands -/

/-- What the gateway asks of the store. -/
inductive Command where
  | reserve (op : AdmitOp ℤ)
  | settle (req : SettleReq ℤ)
  | incr (key : String) (amount : ℤ)

/-- What the store replies. -/
inductive Reply where
  | admitted (status : String) (n : ℤ)
  | settled (applied : ℤ)
  | counted (n : ℤ)
deriving DecidableEq

/-- A command on a server, at a time. -/
def serve (r : Server) (now : ℤ) : Command → Reply × Server
  | .reserve op =>
      let out := admitAt op now r
      (.admitted out.1.1 out.1.2, out.2)
  | .settle req =>
      let out := settleAt req now r
      (.settled out.1, out.2)
  | .incr key amount =>
      let out := r.incrby now key.toList amount
      (.counted out.2, out.1)

/-- The same command on a store of which nothing expires. -/
def serveLasting (s : RedisStore) : Command → Reply × RedisStore
  | .reserve op =>
      let out := admitLua op s
      (.admitted out.1.1 out.1.2, out.2)
  | .settle req =>
      let out := settleLua req s
      (.settled out.1, out.2)
  | .incr key amount =>
      let out := s.incr key amount
      (.counted out.1, out.2)

/-- Such a store with the deadlines of its reservations. -/
structure Ledger where
  store : RedisStore
  deadline : String → ℤ

/-- The deadlines after a command. -/
def Ledger.deadlines (l : Ledger) (now : ℤ) : Command → String → ℤ
  | .reserve op =>
      if (admitLua op l.store).1.1 = "ok" then
        Function.update l.deadline op.reservationKey (now + op.reservationTtlSecs * 1000)
      else l.deadline
  | _ => l.deadline

/-- A settle of a reservation that was admitted, after its deadline. -/
def Ledger.late (l : Ledger) (now : ℤ) : Command → Bool
  | .settle req =>
      (l.store.records req.reservationKey).isSome && l.deadline req.reservationKey ≤ now
  | _ => false

/-- The same command there: a late settle is dropped. -/
def Ledger.serve (l : Ledger) (now : ℤ) (c : Command) : Reply × Ledger :=
  if l.late now c then (.settled 0, l)
  else ((serveLasting l.store c).1, ⟨(serveLasting l.store c).2, l.deadlines now c⟩)

/-! ### Two views of the counters -/

/-- The server and the ledger show the same: a counter `k` does not expire before `ends k`, and a
reservation has its deadline. -/
structure Shows (ends : String → ℤ) (isRecord : String → Prop) (r : Server) (l : Ledger) :
    Prop where
  counter : ∀ k, ¬ isRecord k →
    (r k.toList).elim 0 (fun e => readInt e.value) = l.store.counters k
  lasting : ∀ k, ¬ isRecord k → ∀ e, r k.toList = some e → ∀ t ∈ e.expiry, ends k ≤ t
  record : ∀ k, isRecord k →
    r k.toList = (l.store.records k).map (fun v => ⟨v.toList, some (l.deadline k)⟩)

section Views

variable {ends : String → ℤ} {isRecord : String → Prop} {r : Server} {l : Ledger} {now : ℤ}
  {k : String}

theorem toList_ne {k k' : String} (h : k' ≠ k) : k'.toList ≠ k.toList :=
  fun heq => h (String.toList_inj.mp heq)

namespace Shows

theorem live (h : Shows ends isRecord r l) (hk : ¬ isRecord k) (hnow : now < ends k) :
    (r k.toList).filter (·.live now) = r k.toList := by
  cases he : r k.toList with
  | none => rfl
  | some e =>
      refine Option.filter_some_pos ?_
      rw [Entry.live, Option.all_eq_true]
      exact fun t ht => decide_eq_true (lt_of_lt_of_le hnow (h.lasting k hk e he t ht))

theorem number (h : Shows ends isRecord r l) (hk : ¬ isRecord k) (hnow : now < ends k) :
    Expiry.number r now k = l.store.counters k := by
  rw [Expiry.number, Server.get, h.live hk hnow, ← h.counter k hk]
  cases r k.toList <;> rfl

theorem update_counter (h : Shows ends isRecord r l) (hk : ¬ isRecord k) (v : ℤ)
    {expiry : Option ℤ} (hexpiry : ∀ t ∈ expiry, ends k ≤ t) :
    Shows ends isRecord (Function.update r k.toList (some ⟨intText v, expiry⟩))
      { l with store := { l.store with counters := Function.update l.store.counters k v } } := by
  refine ⟨fun k' hk' => ?_, fun k' hk' e he => ?_, fun k' hk' => ?_⟩
  · by_cases hkk : k' = k
    · subst hkk
      simp only [Function.update_self]
      exact Decimal.readInt_intText v
    · simp only [Function.update_of_ne (toList_ne hkk), Function.update_of_ne hkk]
      exact h.counter k' hk'
  · by_cases hkk : k' = k
    · subst hkk
      rw [Function.update_self] at he
      obtain rfl := Option.some.inj he
      exact hexpiry
    · rw [Function.update_of_ne (toList_ne hkk)] at he
      exact h.lasting k' hk' e he
  · have hkk : k' ≠ k := fun heq => hk (heq ▸ hk')
    rw [Function.update_of_ne (toList_ne hkk)]
    exact h.record k' hk'

theorem update_record (h : Shows ends isRecord r l) (hk : isRecord k) (v : String) (t : ℤ) :
    Shows ends isRecord (Function.update r k.toList (some ⟨v.toList, some t⟩))
      ⟨{ l.store with records := Function.update l.store.records k (some v) },
        Function.update l.deadline k t⟩ := by
  refine ⟨fun k' hk' => ?_, fun k' hk' e he => ?_, fun k' hk' => ?_⟩
  · have hkk : k' ≠ k := fun heq => hk' (heq ▸ hk)
    rw [Function.update_of_ne (toList_ne hkk)]
    exact h.counter k' hk'
  · have hkk : k' ≠ k := fun heq => hk' (heq ▸ hk)
    rw [Function.update_of_ne (toList_ne hkk)] at he
    exact h.lasting k' hk' e he
  · by_cases hkk : k' = k
    · subst hkk
      simp only [Function.update_self, Option.map_some]
    · simp only [Function.update_of_ne (toList_ne hkk), Function.update_of_ne hkk]
      exact h.record k' hk'

theorem incrby (h : Shows ends isRecord r l) (hk : ¬ isRecord k) (hnow : now < ends k)
    (amount : ℤ) :
    (r.incrby now k.toList amount).2 = l.store.counters k + amount ∧
      Shows ends isRecord (r.incrby now k.toList amount).1
        { l with store := { l.store with counters := l.store.counters.bump k amount } } := by
  have hcount := h.counter k hk
  unfold Server.incrby
  rw [h.live hk hnow]
  cases he : r k.toList with
  | none =>
      rw [he] at hcount
      have hzero : l.store.counters k + amount = amount := by
        rw [← hcount]
        exact zero_add amount
      refine ⟨hzero.symm, ?_⟩
      rw [Counters.bump, hzero]
      exact h.update_counter hk amount fun t ht => (Option.not_mem_none t ht).elim
  | some e =>
      rw [he] at hcount
      have hval : readInt e.value = l.store.counters k := hcount
      refine ⟨congrArg (· + amount) hval, ?_⟩
      rw [Counters.bump, ← hval]
      exact h.update_counter hk _ (h.lasting k hk e he)

theorem expire (h : Shows ends isRecord r l) (hk : ¬ isRecord k) {seconds : ℤ}
    (hends : ends k ≤ now + seconds * 1000) :
    Shows ends isRecord (r.expire now k.toList seconds) l := by
  unfold Server.expire
  cases he : (r k.toList).filter (·.live now) with
  | none => exact h
  | some e =>
      have hr := (Option.filter_eq_some_iff.mp he).1
      dsimp only
      refine ⟨fun k' hk' => ?_, fun k' hk' e' he' => ?_, fun k' hk' => ?_⟩
      · by_cases hkk : k' = k
        · subst hkk
          rw [Function.update_self, ← h.counter k' hk', hr]
          rfl
        · rw [Function.update_of_ne (toList_ne hkk)]
          exact h.counter k' hk'
      · by_cases hkk : k' = k
        · subst hkk
          rw [Function.update_self] at he'
          obtain rfl := Option.some.inj he'
          intro t ht
          obtain rfl := Option.some.inj ht
          exact hends
        · rw [Function.update_of_ne (toList_ne hkk)] at he'
          exact h.lasting k' hk' e' he'
      · have hkk : k' ≠ k := fun heq => hk (heq ▸ hk')
        rw [Function.update_of_ne (toList_ne hkk)]
        exact h.record k' hk'

theorem setEx (h : Shows ends isRecord r l) (hk : ¬ isRecord k) {seconds : ℤ}
    (hends : ends k ≤ now + seconds * 1000) (v : ℤ) :
    Shows ends isRecord (r.setEx now k.toList (intText v) seconds)
      { l with store := { l.store with counters := Function.update l.store.counters k v } } :=
  h.update_counter hk v fun t ht => by
    obtain rfl := Option.some.inj ht
    exact hends

end Shows

/-- A counter that a script may touch: it has not ended, and it ends before it would expire. -/
structure InUse (ends : String → ℤ) (isRecord : String → Prop) (now seconds : ℤ) (k : String) :
    Prop where
  counter : ¬ isRecord k
  before : now < ends k
  within : ends k ≤ now + seconds * 1000

namespace Shows

theorem incrbys (h : Shows ends isRecord r l) {xs : List (String × ℤ)}
    (hxs : ∀ x ∈ xs, ¬ isRecord x.1 ∧ now < ends x.1) :
    Shows ends isRecord (xs.foldl (fun r x => (r.incrby now x.1.toList x.2).1) r)
      { l with store := { l.store with
        counters := xs.foldl (fun c x => c.bump x.1 x.2) l.store.counters } } := by
  induction xs generalizing r l with
  | nil => exact h
  | cons x xs ih =>
      obtain ⟨⟨hk, hnow⟩, hrest⟩ := List.forall_mem_cons.mp hxs
      exact ih (h.incrby hk hnow x.2).2 hrest

theorem expires (h : Shows ends isRecord r l) {seconds : ℤ} {keys : List String}
    (hkeys : ∀ k ∈ keys, InUse ends isRecord now seconds k) :
    Shows ends isRecord (keys.foldl (fun r key => r.expire now key.toList seconds) r) l := by
  induction keys generalizing r with
  | nil => exact h
  | cons key keys ih =>
      obtain ⟨hkey, hrest⟩ := List.forall_mem_cons.mp hkeys
      exact ih (h.expire hkey.counter hkey.within) hrest

theorem settles (h : Shows ends isRecord r l) {seconds : ℤ} (delta : ℤ) {keys : List String}
    (hkeys : ∀ k ∈ keys, InUse ends isRecord now seconds k) :
    Shows ends isRecord
      (keys.foldl (fun r key =>
        let v := Expiry.number r now key + delta
        r.setEx now key.toList (intText (if v < 0 then 0 else v)) seconds) r)
      { l with store := { l.store with
        counters := keys.foldl (fun c key =>
          let v := c key + delta
          Function.update c key (if v < 0 then 0 else v)) l.store.counters } } := by
  induction keys generalizing r l with
  | nil => exact h
  | cons key keys ih =>
      obtain ⟨hkey, hrest⟩ := List.forall_mem_cons.mp hkeys
      rw [List.foldl_cons, List.foldl_cons, h.number hkey.counter hkey.before]
      exact ih (h.setEx hkey.counter hkey.within _) hrest

end Shows

/-! ### One command -/

/-- The keys of a command are in use, and its reservation is one. -/
def Timely (ends : String → ℤ) (isRecord : String → Prop) (now : ℤ) : Command → Prop
  | .reserve op => isRecord op.reservationKey ∧
      ∀ k ∈ keysOf op, InUse ends isRecord now op.bucketTtlSecs k
  | .settle req => isRecord req.reservationKey ∧
      ∀ k ∈ req.tokenKeys, InUse ends isRecord now req.bucketTtlSecs k
  | .incr key _ => ¬ isRecord key ∧ now < ends key

namespace Shows

theorem reserve (h : Shows ends isRecord r l) {op : AdmitOp ℤ}
    (hop : Timely ends isRecord now (.reserve op)) :
    (serve r now (.reserve op)).1 = (l.serve now (.reserve op)).1 ∧
      Shows ends isRecord (serve r now (.reserve op)).2 (l.serve now (.reserve op)).2 := by
  obtain ⟨hrsv, hkeys⟩ := hop
  have hnumber : ∀ k ∈ keysOf op, Expiry.number r now k = l.store.counters k :=
    fun k hk => h.number (hkeys k hk).counter (hkeys k hk).before
  have hct := hnumber op.cTokensKey (by simp [keysOf])
  have hcr := hnumber op.cReqKey (by simp [keysOf])
  have hpt := hnumber op.pTokensKey (by simp [keysOf])
  simp only [serve, Ledger.serve, Ledger.late, Ledger.deadlines, serveLasting, admitAt, admitLua,
    hct, hcr, hpt, Bool.false_eq_true, if_false]
  split_ifs with htokens hok hrequests hok hprovider hok hok
  · exact absurd hok (show "tokens" ≠ "ok" by decide)
  · exact ⟨rfl, h⟩
  · exact absurd hok (show "requests" ≠ "ok" by decide)
  · exact ⟨rfl, h⟩
  · exact absurd hok (show "provider_tokens" ≠ "ok" by decide)
  · exact ⟨rfl, h⟩
  · refine ⟨rfl, ?_⟩
    have hraised : Shows ends isRecord (raise op now r)
        { l with store := { l.store with counters := op.place l.store.counters } } := by
      refine h.incrbys fun x hx => ?_
      have hmem : x.1 ∈ keysOf op := by
        simp only [List.mem_cons, List.not_mem_nil, or_false] at hx
        rcases hx with rfl | rfl | rfl | rfl | rfl <;> simp [keysOf]
      exact ⟨(hkeys _ hmem).counter, (hkeys _ hmem).before⟩
    exact (hraised.expires hkeys).update_record hrsv "open" _
  · exact absurd rfl hok

theorem settle (h : Shows ends isRecord r l) {req : SettleReq ℤ}
    (hreq : Timely ends isRecord now (.settle req)) :
    (serve r now (.settle req)).1 = (l.serve now (.settle req)).1 ∧
      Shows ends isRecord (serve r now (.settle req)).2 (l.serve now (.settle req)).2 := by
  obtain ⟨hrsv, hkeys⟩ := hreq
  have hrecord := h.record _ hrsv
  simp only [serve, Ledger.serve, Ledger.late, Ledger.deadlines, serveLasting, settleAt, settleLua,
    Bool.and_eq_true, decide_eq_true_eq]
  by_cases hlate : (l.store.records req.reservationKey).isSome = true ∧
      l.deadline req.reservationKey ≤ now
  · have hget : r.get now req.reservationKey.toList = none := by
      rw [Server.get, hrecord]
      cases l.store.records req.reservationKey with
      | none => rfl
      | some v =>
          rw [Option.map_some, Option.filter_some_neg]
          · rfl
          · simpa [Entry.live] using hlate.2
    rw [if_pos hlate, hget, if_pos (by simp)]
    exact ⟨rfl, h⟩
  · rw [if_neg hlate]
    have hlive : (r req.reservationKey.toList).filter (·.live now) =
        r req.reservationKey.toList := by
      rw [hrecord]
      cases hopen : l.store.records req.reservationKey with
      | none => rfl
      | some v =>
          have hbefore : ¬ l.deadline req.reservationKey ≤ now := fun hle =>
            hlate ⟨by rw [hopen]; rfl, hle⟩
          exact Option.filter_some_pos (by simpa [Entry.live] using hbefore)
    have hget : r.get now req.reservationKey.toList =
        (l.store.records req.reservationKey).map String.toList := by
      rw [Server.get, hlive, hrecord, Option.map_map]
      rfl
    rw [hget]
    cases hopen : l.store.records req.reservationKey with
    | none => exact ⟨rfl, h⟩
    | some v =>
        by_cases hv : v = "open"
        · subst hv
          rw [if_neg (by simp), if_neg (by simp)]
          refine ⟨rfl, ?_⟩
          have hkept : Shows ends isRecord
              (r.setKeep now req.reservationKey.toList "settled".toList)
              { l with store := { l.store with
                records := Function.update l.store.records req.reservationKey
                  (some "settled") } } := by
            have hset := h.update_record hrsv "settled" (l.deadline req.reservationKey)
            rw [Function.update_eq_self] at hset
            unfold Server.setKeep
            rw [hlive, hrecord, hopen]
            exact hset
          exact hkept.settles req.delta fun k hk => hkeys k (List.mem_of_mem_take hk)
        · have hne : some v.toList ≠ some "open".toList := fun heq =>
            hv (String.toList_inj.mp (Option.some.inj heq))
          rw [Option.map_some, if_pos hne, if_pos fun heq => hv (Option.some.inj heq)]
          exact ⟨rfl, h⟩

/-- **A command that comes in time finds on the server what the ledger has.** -/
theorem serve (h : Shows ends isRecord r l) {c : Command} (hc : Timely ends isRecord now c) :
    (Expiry.serve r now c).1 = (l.serve now c).1 ∧
      Shows ends isRecord (Expiry.serve r now c).2 (l.serve now c).2 := by
  cases c with
  | reserve op => exact h.reserve hc
  | settle req => exact h.settle hc
  | incr key amount =>
      obtain ⟨hcount, hshows⟩ := h.incrby hc.1 hc.2 amount
      exact ⟨congrArg Reply.counted hcount, hshows⟩

end Shows

end Views

/-! ### The keys of the gateway -/

/-- The counters of a family. -/
def counterKey : Family → String → String → String
  | .clientTokens => cTokensKey
  | .clientRequests => cReqKey
  | .providerTokens => pTokensKey
  | .providerRequests => pReqKey
  | .modelTokens => mTokensKey

/-- The counter carries the day of the time. -/
def Dated (k : String) (secs : ℤ) : Prop :=
  ∃ family name, k = bucketKey family name (dayString secs)

theorem dated_counterKey (family : Family) (name : String) (secs : ℤ) :
    Dated (counterKey family name (dayString secs)) secs := by
  cases family <;> exact ⟨_, name, rfl⟩

theorem day_of_dated {k : String} {s t : ℤ} (hs : Dated k s) (ht : Dated k t) :
    s / 86400 = t / 86400 := by
  obtain ⟨family, name, rfl⟩ := hs
  obtain ⟨family', name', heq⟩ := ht
  have hjoin : ∀ family name day : String,
      bucketKey family name day = bucketKey "" (family ++ name) day := fun family name day => by
    rw [bucketKey, bucketKey, String.empty_append]
  rw [hjoin, hjoin family'] at heq
  exact dayString_inj.mp (bucketKey_inj (colon_not_mem_dayString s) (colon_not_mem_dayString t)
    heq).2

open Classical in
/-- A counter is in use until the end of the day after its own. -/
noncomputable def lastUse (k : String) : ℤ :=
  if h : ∃ secs, Dated k secs then (h.choose / 86400 + 2) * 86400000 else 0

theorem lastUse_of_dated {k : String} {secs : ℤ} (h : Dated k secs) :
    lastUse k = (secs / 86400 + 2) * 86400000 := by
  have hex : ∃ secs, Dated k secs := ⟨secs, h⟩
  rw [lastUse, dif_pos hex, day_of_dated hex.choose_spec h]

def IsReservation (k : String) : Prop := ∃ id, k = rsvKey id

theorem not_isReservation (family : Family) (name day : String) :
    ¬ IsReservation (counterKey family name day) := by
  rintro ⟨id, h⟩
  have hhead := congrArg (fun k : String => k.toList[6]?) h
  cases family <;>
    simp [counterKey, cTokensKey, cReqKey, pTokensKey, pReqKey, mTokensKey, bucketKey, rsvKey]
      at hhead

/-! ### Runs -/

/-- What the gateway asks: the admission and the settle of a reservation, and one of the increments
of `record`. -/
inductive Ask where
  | reserve (rsv : Reservation ℤ)
  | settle (rsv : Reservation ℤ) (prompt completion : ℤ)
  | incr (family : Family) (name : String) (amount : ℤ)

/-- What is asked, the clock of the gateway in seconds when it builds the keys, and the time of the
server in milliseconds when it runs the command. -/
structure Asked where
  ask : Ask
  clock : ℤ
  now : ℤ

def Asked.command (m : Metering ℤ) (a : Asked) : Command :=
  match a.ask with
  | .reserve rsv => .reserve (m.admitOp rsv (dayString a.clock))
  | .settle rsv prompt completion =>
      .settle (Metering.settleReq rsv prompt completion (dayString a.clock))
  | .incr family name amount => .incr (counterKey family name (dayString a.clock)) amount

/-- The command is run within a day after its keys were built. -/
def Asked.Prompt (a : Asked) : Prop :=
  a.clock * 1000 ≤ a.now ∧ a.now < a.clock * 1000 + 86400000

/-- The replies of a run. -/
def replies {σ ι ρ : Type} (step : σ → ι → ρ × σ) : σ → List ι → List ρ
  | _, [] => []
  | s, i :: is => (step s i).1 :: replies step (step s i).2 is

/-- The server, the ledger, and the store of which nothing expires. -/
def onServer (m : Metering ℤ) (r : Server) (a : Asked) : Reply × Server :=
  serve r a.now (a.command m)

def onLedger (m : Metering ℤ) (l : Ledger) (a : Asked) : Reply × Ledger :=
  l.serve a.now (a.command m)

def onLasting (m : Metering ℤ) (s : RedisStore) (a : Asked) : Reply × RedisStore :=
  serveLasting s (a.command m)

def Ledger.empty : Ledger := ⟨RedisStore.empty, fun _ => 0⟩

/-- A settle comes before the deadline of its reservation. -/
def InLifetime (m : Metering ℤ) (l : Ledger) (a : Asked) : Prop :=
  l.late a.now (a.command m) = false

theorem inUse_of_prompt {a : Asked} (ha : a.Prompt) (family : Family) (name : String) :
    InUse lastUse IsReservation a.now bucketTtlSecs
      (counterKey family name (dayString a.clock)) := by
  obtain ⟨hge, hlt⟩ := ha
  have hlast := lastUse_of_dated (dated_counterKey family name a.clock)
  have httl : (bucketTtlSecs : ℤ) = 172800 := rfl
  refine ⟨not_isReservation family name _, ?_, ?_⟩
  · rw [hlast]
    omega
  · rw [hlast, httl]
    omega

theorem timely_of_prompt (m : Metering ℤ) {a : Asked} (ha : a.Prompt) :
    Timely lastUse IsReservation a.now (a.command m) := by
  have huse := inUse_of_prompt ha
  obtain ⟨ask, clock, now⟩ := a
  cases ask with
  | reserve rsv =>
      refine ⟨⟨rsv.id, rfl⟩, fun k hk => ?_⟩
      simp only [keysOf, Metering.admitOp, List.mem_cons, List.not_mem_nil, or_false] at hk
      rcases hk with rfl | rfl | rfl | rfl | rfl
      · exact huse .clientTokens rsv.client
      · exact huse .clientRequests rsv.client
      · exact huse .providerTokens rsv.provider
      · exact huse .providerRequests rsv.provider
      · exact huse .modelTokens rsv.model
  | settle rsv prompt completion =>
      refine ⟨⟨rsv.id, rfl⟩, fun k hk => ?_⟩
      simp only [Metering.settleReq, Metering.tokenKeys, List.mem_cons, List.not_mem_nil,
        or_false] at hk
      rcases hk with rfl | rfl | rfl
      · exact huse .clientTokens rsv.client
      · exact huse .providerTokens rsv.provider
      · exact huse .modelTokens rsv.model
  | incr family name amount =>
      have h := huse family name
      exact ⟨h.counter, h.before⟩

theorem shows_empty : Shows lastUse IsReservation (fun _ => none) Ledger.empty :=
  ⟨fun _ _ => rfl, fun _ _ _ he => (by cases he), fun _ _ => rfl⟩

/-- The server replies as the ledger. -/
theorem replies_ledger (m : Metering ℤ) {r : Server} {l : Ledger} {as : List Asked}
    (h : Shows lastUse IsReservation r l) (has : ∀ a ∈ as, a.Prompt) :
    replies (onServer m) r as = replies (onLedger m) l as := by
  induction as generalizing r l with
  | nil => rfl
  | cons a as ih =>
      obtain ⟨ha, hrest⟩ := List.forall_mem_cons.mp has
      obtain ⟨hreply, hshows⟩ := h.serve (timely_of_prompt m ha)
      exact congrArg₂ List.cons hreply (ih hshows hrest)

/-- Where no settle is late the deadlines do not matter. -/
theorem replies_lasting (m : Metering ℤ) {l : Ledger} {as : List Asked}
    (h : Runs.Along (fun l a => (onLedger m l a).2) (InLifetime m) l as) :
    replies (onLedger m) l as = replies (onLasting m) l.store as := by
  induction as generalizing l with
  | nil => rfl
  | cons a as ih =>
      obtain ⟨ha, hrest⟩ := h
      have hserve : onLedger m l a = ((onLasting m l.store a).1,
          ⟨(onLasting m l.store a).2, l.deadlines a.now (a.command m)⟩) := by
        rw [onLedger, Ledger.serve, if_neg (by rw [ha]; exact Bool.false_ne_true)]
        rfl
      have hih : replies (onLedger m) (onLedger m l a).2 as =
          replies (onLasting m) (onLedger m l a).2.store as := ih hrest
      rw [hserve] at hih
      rw [replies, replies, hserve, hih]

/-- **Expiry does not show but in late settles.**  Where every command is run within a day after
its keys were built, the server replies as the ledger, which drops the settles that come later than
ten minutes after the admission; where there are none, as a store of which nothing expires. -/
theorem expiry_invisible (m : Metering ℤ) (as : List Asked) (has : ∀ a ∈ as, a.Prompt) :
    replies (onServer m) (fun _ => none) as = replies (onLedger m) Ledger.empty as ∧
      (Runs.Along (fun l a => (onLedger m l a).2) (InLifetime m) Ledger.empty as →
        replies (onServer m) (fun _ => none) as = replies (onLasting m) RedisStore.empty as) := by
  have hledger := replies_ledger m shows_empty has
  exact ⟨hledger, fun h => hledger.trans (replies_lasting m h)⟩

/-- An admission, and its settle eleven minutes later. -/
def slowAnswer : List Asked :=
  [⟨.reserve ⟨"r", "c", "p", "m", 10, 20⟩, 1000, 1000000⟩,
    ⟨.settle ⟨"r", "c", "p", "m", 10, 20⟩ 3 4, 1660, 1660000⟩,
    ⟨.incr .clientTokens "c" 0, 1660, 1660000⟩]

/-- The same with the settle in time. -/
def quickAnswer : List Asked :=
  [⟨.reserve ⟨"r", "c", "p", "m", 10, 20⟩, 1000, 1000000⟩,
    ⟨.settle ⟨"r", "c", "p", "m", 10, 20⟩ 3 4, 1060, 1060000⟩,
    ⟨.incr .clientTokens "c" 0, 1660, 1660000⟩]

/-- The reserve stays if the settle is late. -/
theorem expiry_invisible_answers :
    replies (onServer ⟨none, none, none, false, 20⟩) (fun _ => none) slowAnswer =
        [.admitted "ok" 30, .settled 0, .counted 30] ∧
      replies (onServer ⟨none, none, none, false, 20⟩) (fun _ => none) quickAnswer =
        replies (onLasting ⟨none, none, none, false, 20⟩) RedisStore.empty quickAnswer := by
  have hslow : ∀ a ∈ slowAnswer, a.Prompt := by
    intro a ha
    simp only [slowAnswer, List.mem_cons, List.not_mem_nil, or_false] at ha
    rcases ha with rfl | rfl | rfl <;> exact ⟨by decide, by decide⟩
  have hquick : ∀ a ∈ quickAnswer, a.Prompt := by
    intro a ha
    simp only [quickAnswer, List.mem_cons, List.not_mem_nil, or_false] at ha
    rcases ha with rfl | rfl | rfl <;> exact ⟨by decide, by decide⟩
  refine ⟨(expiry_invisible ⟨none, none, none, false, 20⟩ slowAnswer hslow).1.trans (by decide),
    (expiry_invisible ⟨none, none, none, false, 20⟩ quickAnswer hquick).2 ⟨rfl, ?_, rfl, trivial⟩⟩
  unfold InLifetime
  decide

end FirewallLLM.Quota.Expiry
