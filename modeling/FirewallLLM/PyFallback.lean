import FirewallLLM.Program
import FirewallLLM.PyMetering

/-! # Fallback calls that fail on the way

`_admit_fallback` and `_settle_fallback` are rows of awaited commands, with the changes of the
process's own tables before them or after them.  Here each is a program over its commands, and an
exception of the backend ends it at any of them, where the command may have been carried out
before.

`fallback_intact_iff`: exactly when a call that fails leaves the server and the tables as they
were. -/

namespace FirewallLLM.Py.Metering

open Quota

/-! ### The two calls, command by command -/

/-- The awaited commands, and what is done to the tables in between. -/
inductive Command where
  | get (key : String)
  | incrby (key : String) (amount : ℤ)
  | expire (key : String) (secs : ℕ)
  | set (key : String) (value : ℤ)
  | isSettledOrNotOpen (id : String)
  | setOpen (rsv : Reservation)
  | addSettled (id : String)
  | delOpen (id : String)
deriving DecidableEq, Repr

namespace Command

/-- What a command returns. -/
abbrev Reply : Command → Type
  | get _ | incrby _ _ => ℤ
  | expire _ _ | set _ _ | setOpen _ | addSettled _ | delOpen _ => Unit
  | isSettledOrNotOpen _ => Bool

/-- The commands of the backend. -/
def awaited : Command → Bool
  | get _ | incrby _ _ | expire _ _ | set _ _ => true
  | isSettledOrNotOpen _ | setOpen _ | addSettled _ | delOpen _ => false

/-- What a command does. -/
def run : (e : Command) → Fallback → Reply e × Fallback
  | get key, s => (s.counters key, s)
  | incrby key amount, s =>
      (s.counters key + amount, { s with counters := s.counters.bump key amount })
  | expire _ _, s => ((), s)
  | set key value, s => ((), { s with counters := Function.update s.counters key value })
  | isSettledOrNotOpen id, s =>
      (decide (id ∈ s.fallbackSettled ∨ s.fallbackOpen id = none), s)
  | setOpen rsv, s =>
      ((), { s with fallbackOpen := Function.update s.fallbackOpen rsv.id (some rsv) })
  | addSettled id, s => ((), { s with fallbackSettled := insert id s.fallbackSettled })
  | delOpen id, s => ((), { s with fallbackOpen := Function.update s.fallbackOpen id none })

end Command

/-- Ask for one command. -/
def call (e : Command) : Program Command Command.Reply (Command.Reply e) := .op e .ret

/-- `_incr` -/
def incr (key : String) (amount : ℤ) : Program Command Command.Reply ℤ := do
  let value ← call (.incrby key amount)
  call (.expire key (60 * 60 * 48))
  return value

/-- The end of `_admit_fallback`. -/
def reserveProgram (rsv : Reservation) (day : String) :
    Program Command Command.Reply (Except QuotaExceeded Reservation × List Event) := do
  let _ ← incr (cTokensKey rsv.client day) rsv.reservedTotal
  let _ ← incr (cReqKey rsv.client day) 1
  let _ ← incr (pTokensKey rsv.provider day) rsv.reservedTotal
  let _ ← incr (pReqKey rsv.provider day) 1
  let _ ← incr (mTokensKey rsv.model day) rsv.reservedTotal
  call (.setOpen rsv)
  return (.ok rsv, [])

/-- The first of the `checks` that is broken. -/
def brokenCheck (q : Quotas) (rsv : Reservation) (ctok creq ptok : ℤ) :
    Option (String × ℤ × Option ℤ) :=
  let checks := [("tokens", ctok, q.clientTokensPerDay), ("requests", creq, q.clientRequestsPerDay),
    ("provider_tokens", ptok, q.providerTokensPerDay)]
  let broken := fun (check : String × ℤ × Option ℤ) =>
    let need := if check.1 = "requests" then 1 else rsv.reservedTotal
    check.2.2.any (fun limit => limit < check.2.1 + need)
  checks.find? broken

/-- `_admit_fallback`, with what it raises and publishes. -/
def admitProgram (q : Quotas) (rsv : Reservation) (day : String) :
    Program Command Command.Reply (Except QuotaExceeded Reservation × List Event) := do
  let ctok ← call (.get (cTokensKey rsv.client day))
  let creq ← call (.get (cReqKey rsv.client day))
  let ptok ← call (.get (pTokensKey rsv.provider day))
  match brokenCheck q rsv ctok creq ptok with
  | some check => return exceeded rsv check.1 check.2.1 check.2.2
  | none => reserveProgram rsv day

/-- The loop of `_settle_fallback`. -/
def settleKeys (delta : ℤ) : List String → Program Command Command.Reply Unit
  | [] => return ()
  | key :: keys => do
      let current ← call (.get key)
      call (.set key (max 0 (current + delta)))
      call (.expire key bucketTtlSecs)
      settleKeys delta keys

/-- `_settle_fallback` -/
def settleProgram (rsv : Reservation) (delta : ℤ) (day : String) :
    Program Command Command.Reply Bool := do
  let done ← call (.isSettledOrNotOpen rsv.id)
  if done then return false
  else
    call (.addSettled rsv.id)
    call (.delOpen rsv.id)
    settleKeys delta [cTokensKey rsv.client day, pTokensKey rsv.provider day,
      mTokensKey rsv.model day]
    return true

/-- Run a call whose awaited command number `n` raises, carried out or not. -/
abbrev attempt {α : Type} (p : Program Command Command.Reply α) (n : ℕ) (carried : Bool)
    (s : Fallback) : Option (α × ℕ) × Fallback :=
  p.abort Command.run Command.awaited carried n s

/-- Where the backend makes the call raise, the counters and the tables are as before. -/
def Intact {α : Type} (p : Program Command Command.Reply α) (n : ℕ) (carried : Bool)
    (s : Fallback) : Prop :=
  (attempt p n carried s).1 = none → (attempt p n carried s).2 = s

/-! ### An admission -/

/-- After `incrby`. -/
def Fallback.add (s : Fallback) (key : String) (amount : ℤ) : Fallback :=
  { s with counters := s.counters.bump key amount }

/-- The commands that take nothing from a counter. -/
def Command.Adds : Command → Prop
  | incrby _ amount => 0 ≤ amount
  | set _ _ => False
  | get _ | expire _ _ | isSettledOrNotOpen _ | setOpen _ | addSettled _ | delOpen _ => True

section Admission

variable {q : Quotas} {rsv : Reservation} {day : String} {carried : Bool} {s : Fallback}

theorem adds_run (e : Command) (s : Fallback) (he : e.Adds) (key : String) :
    s.counters key ≤ (e.run s).2.counters key := by
  cases e with
  | incrby k amount =>
      have hadd : 0 ≤ amount := he
      simp only [Command.run, Counters.bump_apply]
      split_ifs with hk
      · subst hk
        exact le_add_of_nonneg_right hadd
      · exact le_rfl
  | set k value => exact absurd he id
  | _ => exact le_rfl

theorem le_of_adds {α : Type} {p : Program Command Command.Reply α} (hp : p.Uses Command.Adds)
    (n : ℕ) (s : Fallback) (key : String) :
    s.counters key ≤ (attempt p n carried s).2.counters key := by
  exact Program.abort_rel (fun a b : Fallback => ∀ key, a.counters key ≤ b.counters key)
    (fun _ _ => le_rfl) (fun _ _ _ hab hbc key => (hab key).trans (hbc key)) adds_run hp n s key

section Incr

variable {α : Type} (key : String) (amount : ℤ) (f : ℤ → Program Command Command.Reply α)

theorem attempt_incr_one : attempt (incr key amount >>= f) 1 carried s =
    (none, s.add key amount) := by
  cases carried <;> rfl

theorem attempt_incr (n : ℕ) : attempt (incr key amount >>= f) (n + 2) carried s =
    attempt (f (s.counters key + amount)) n carried (s.add key amount) := rfl

theorem uses_incr (h : 0 ≤ amount) : (incr key amount).Uses Command.Adds :=
  ⟨h, fun _ => ⟨trivial, fun _ => trivial⟩⟩

end Incr

theorem add_eq_self {key : String} {amount : ℤ} : s.add key amount = s ↔ amount = 0 := by
  constructor
  · intro h
    have hkey : (s.add key amount).counters key = s.counters key := by rw [h]
    simpa [Fallback.add] using hkey
  · rintro rfl
    have hcounters : s.counters.bump key 0 = s.counters := by
      funext k
      simp [Counters.bump_apply]
      rintro rfl
      rfl
    rw [Fallback.add, hcounters]

/-- A quota denies the reservation. -/
def Denied (q : Quotas) (rsv : Reservation) (day : String) (s : Fallback) : Prop :=
  FallbackBroken q.clientTokensPerDay
      (s.counters (cTokensKey rsv.client day) + rsv.reservedTotal) ∨
    FallbackBroken q.clientRequestsPerDay (s.counters (cReqKey rsv.client day) + 1) ∨
    FallbackBroken q.providerTokensPerDay
      (s.counters (pTokensKey rsv.provider day) + rsv.reservedTotal)

/-- The checks of the call in the state `s`. -/
abbrev Fallback.check (s : Fallback) (q : Quotas) (rsv : Reservation) (day : String) :
    Option (String × ℤ × Option ℤ) :=
  brokenCheck q rsv (s.counters (cTokensKey rsv.client day))
    (s.counters (cReqKey rsv.client day)) (s.counters (pTokensKey rsv.provider day))

theorem check_eq_none : s.check q rsv day = none ↔ ¬ Denied q rsv day s := by
  have hany : ∀ (value : Option ℤ) (needed : ℤ),
      value.any (fun limit => limit < needed) = true ↔ FallbackBroken value needed := by
    intro value needed
    simp [Option.any_eq_true, FallbackBroken]
  have htokens : ¬ "tokens" = "requests" := by decide
  have hprovider : ¬ "provider_tokens" = "requests" := by decide
  simp only [Fallback.check, brokenCheck, find?_three, if_neg htokens, if_neg hprovider, if_true,
    hany, Denied]
  split_ifs with h1 h2 h3
  · simp [h1]
  · simp [h2]
  · simp [h3]
  · simp [h1, h2, h3]

theorem attempt_gets {n : ℕ} (hn : n ≤ 2) :
    attempt (admitProgram q rsv day) n carried s = (none, s) := by
  interval_cases n <;> cases carried <;> rfl

theorem attempt_checks (n : ℕ) : attempt (admitProgram q rsv day) (n + 3) carried s =
    attempt ((s.check q rsv day).elim (reserveProgram rsv day)
      (fun check => .ret (exceeded rsv check.1 check.2.1 check.2.2))) n carried s := by
  cases hcheck : s.check q rsv day with
  | none =>
      simp only [attempt, admitProgram, call, Program.op_bind, Program.ret_bind, Program.abort,
        Command.awaited, Command.run, hcheck, Option.elim, if_true]
  | some check =>
      simp only [attempt, admitProgram, call, Program.op_bind, Program.ret_bind, Program.abort,
        Command.awaited, Command.run, hcheck, Option.elim, if_true, Program.pure_eq]

theorem admitFallback_check : admitFallback q rsv day s =
    (s.check q rsv day).elim
      ((.ok rsv, []), { s with
        counters := (admitArgs q rsv day).place s.counters
        fallbackOpen := Function.update s.fallbackOpen rsv.id (some rsv) })
      (fun check => (exceeded rsv check.1 check.2.1 check.2.2, s)) := by
  unfold admitFallback Fallback.check brokenCheck
  simp only
  split <;> rename_i hfind
  · rw [hfind]
    rfl
  · rw [hfind]
    rfl

theorem attempt_admit {n : ℕ} (hn : 13 ≤ n) :
    (attempt (admitProgram q rsv day) n carried s).1.map Prod.fst =
        some (admitFallback q rsv day s).1 ∧
      (attempt (admitProgram q rsv day) n carried s).2 = (admitFallback q rsv day s).2 := by
  obtain ⟨n, rfl⟩ := Nat.exists_eq_add_of_le' hn
  have hchecks : attempt (admitProgram q rsv day) (n + 13) carried s =
      attempt ((s.check q rsv day).elim (reserveProgram rsv day)
        (fun check => .ret (exceeded rsv check.1 check.2.1 check.2.2))) (n + 10) carried s :=
    attempt_checks (n + 10)
  rw [hchecks, admitFallback_check]
  cases s.check q rsv day with
  | none => exact ⟨rfl, rfl⟩
  | some check => exact ⟨rfl, rfl⟩

/-- The failure comes before an increment by more than 0 has been carried out. -/
def BeforeIncrements (reserve : ℤ) (n : ℕ) (carried : Bool) : Prop :=
  n ≤ 2 ∨ (n = 3 ∧ carried = false) ∨
    (reserve = 0 ∧ (n ≤ 4 ∨ (n = 5 ∧ carried = false)))

theorem le_attempt_incr {key : String} {amount : ℤ} {α : Type}
    {f : ℤ → Program Command Command.Reply α} (hf : ∀ value, (f value).Uses Command.Adds)
    (n : ℕ) (k : String) : (s.add key amount).counters k ≤
      (attempt (incr key amount >>= f) (n + 1) carried s).2.counters k := by
  cases n with
  | zero =>
      rw [attempt_incr_one]
  | succ n =>
      rw [attempt_incr]
      exact le_of_adds (hf _) n _ k

theorem requests_up (h : 0 ≤ rsv.reservedTotal) : s.counters (cReqKey rsv.client day) <
    ((s.add (cTokensKey rsv.client day) rsv.reservedTotal).add (cReqKey rsv.client day) 1).counters
      (cReqKey rsv.client day) := by
  simp only [Fallback.add, Counters.bump_apply, if_true]
  split_ifs with heq
  · rw [heq]
    omega
  · omega

/-- Later on the request counter is up. -/
theorem reserve_grows (h : 0 ≤ rsv.reservedTotal) (n : ℕ) :
    s.counters (cReqKey rsv.client day) <
      (attempt (reserveProgram rsv day) (n + 3) carried s).2.counters
        (cReqKey rsv.client day) := by
  refine (requests_up h).trans_le (le_attempt_incr (fun _ => ?_) n _)
  refine (uses_incr _ _ h).bind fun _ => (uses_incr _ _ Int.one_nonneg).bind fun _ =>
    (uses_incr _ _ h).bind fun _ => ?_
  exact ⟨trivial, fun _ => trivial⟩

theorem reserve_raises {n : ℕ} (hn : n < 10) :
    (attempt (reserveProgram rsv day) n carried s).1 = none := by
  interval_cases n <;> rfl

/-- An exception leaves the state of an admission alone before the first increment only. -/
theorem intact_reserve (h : 0 ≤ rsv.reservedTotal) (n : ℕ) :
    Intact (reserveProgram rsv day) n carried s ↔
      BeforeIncrements rsv.reservedTotal (n + 3) carried ∨ 10 ≤ n := by
  set s₁ := s.add (cTokensKey rsv.client day) rsv.reservedTotal with hs₁
  rcases Nat.lt_or_ge n 3 with hn | hn
  · interval_cases n
    · have hafter : attempt (reserveProgram rsv day) 0 carried s =
          (none, if carried then s₁ else s) := rfl
      rw [Intact, hafter]
      cases carried <;> simp [BeforeIncrements, hs₁, add_eq_self]
    · have hafter : attempt (reserveProgram rsv day) 1 carried s = (none, s₁) :=
        attempt_incr_one _ _ _
      rw [Intact, hafter]
      cases carried <;> simp [BeforeIncrements, hs₁, add_eq_self]
    · have hafter : attempt (reserveProgram rsv day) 2 carried s =
          (none, if carried then s₁.add (cReqKey rsv.client day) 1 else s₁) := rfl
      have hchanged : s₁.add (cReqKey rsv.client day) 1 ≠ s := fun heq => by
        have hup : s.counters (cReqKey rsv.client day) <
            (s₁.add (cReqKey rsv.client day) 1).counters (cReqKey rsv.client day) := requests_up h
        rw [heq] at hup
        exact hup.false
      rw [Intact, hafter]
      cases carried with
      | false => simp [BeforeIncrements, hs₁, add_eq_self]
      | true => simp [BeforeIncrements, hchanged]
  · obtain ⟨n, rfl⟩ := Nat.exists_eq_add_of_le' hn
    have hlate : ¬ BeforeIncrements rsv.reservedTotal (n + 3 + 3) carried := by
      unfold BeforeIncrements
      omega
    rw [or_iff_right hlate]
    constructor
    · intro hintact
      by_contra hraises
      have hsame : (attempt (reserveProgram rsv day) (n + 3) carried s).2 = s :=
        hintact (reserve_raises (not_le.mp hraises))
      have hup : s.counters (cReqKey rsv.client day) <
          (attempt (reserveProgram rsv day) (n + 3) carried s).2.counters
            (cReqKey rsv.client day) := reserve_grows h n
      rw [hsame] at hup
      exact hup.false
    · intro hends hraises
      obtain ⟨m, hm⟩ := Nat.exists_eq_add_of_le' hends
      rw [hm] at hraises
      cases hraises

theorem intact_admit (h : 0 ≤ rsv.reservedTotal) (n : ℕ) :
    Intact (admitProgram q rsv day) n carried s ↔
      Denied q rsv day s ∨ BeforeIncrements rsv.reservedTotal n carried ∨ 13 ≤ n := by
  rcases Nat.lt_or_ge n 3 with hn | hn
  · have hle : n ≤ 2 := by omega
    have hafter : attempt (admitProgram q rsv day) n carried s = (none, s) := attempt_gets hle
    simp [Intact, hafter, BeforeIncrements, hle]
  · obtain ⟨n, rfl⟩ := Nat.exists_eq_add_of_le' hn
    rw [Intact, attempt_checks]
    cases hcheck : s.check q rsv day with
    | some check =>
        have hdenied : Denied q rsv day s := by
          by_contra hd
          rw [check_eq_none.mpr hd] at hcheck
          cases hcheck
        simp [hdenied]
    | none =>
        have hallowed : ¬ Denied q rsv day s := check_eq_none.mp hcheck
        have hreserve : Intact (reserveProgram rsv day) n carried s ↔
            BeforeIncrements rsv.reservedTotal (n + 3) carried ∨ 10 ≤ n := intact_reserve h n
        simp only [hallowed, false_or, Option.elim]
        rw [show 13 ≤ n + 3 ↔ 10 ≤ n by omega]
        exact hreserve

end Admission

/-! ### A settle -/

section Settle

variable {rsv : Reservation} {delta : ℤ} {day : String} {carried : Bool} {s : Fallback}

theorem attempt_key (key : String) (keys : List String) (n : ℕ) :
    attempt (settleKeys delta (key :: keys)) (n + 3) carried s =
      attempt (settleKeys delta keys) n carried { s with
        counters := Function.update s.counters key (max 0 (s.counters key + delta)) } := rfl

theorem settleKeys_raises {keys : List String} {n : ℕ} (hn : n < 3 * keys.length) :
    (attempt (settleKeys delta keys) n carried s).1 = none := by
  induction keys generalizing n s with
  | nil => simp at hn
  | cons key keys ih =>
      rcases Nat.lt_or_ge n 3 with hfew | hmany
      · interval_cases n <;> rfl
      · obtain ⟨n, rfl⟩ := Nat.exists_eq_add_of_le' hmany
        rw [attempt_key]
        refine ih ?_
        rw [List.length_cons] at hn
        omega

theorem settleKeys_ends {keys : List String} (n : ℕ) :
    attempt (settleKeys delta keys) (3 * keys.length + n) carried s = (some ((), n), { s with
      counters := keys.foldl
        (fun c key => Function.update c key (max 0 (c key + delta))) s.counters }) := by
  induction keys generalizing s with
  | nil => simp [settleKeys]
  | cons key keys ih =>
      have hlength : 3 * (key :: keys).length + n = 3 * keys.length + n + 3 := by
        rw [List.length_cons]
        omega
      rw [hlength, attempt_key, ih]
      rfl

theorem uses_settleKeys (keys : List String) :
    (settleKeys delta keys).Uses (fun e => e.awaited = true) := by
  induction keys with
  | nil => trivial
  | cons key keys ih => exact ⟨rfl, fun _ => ⟨rfl, fun _ => ⟨rfl, fun _ => ih⟩⟩⟩

theorem awaited_tables (e : Command) (s : Fallback) (he : e.awaited = true) :
    (e.run s).2.fallbackSettled = s.fallbackSettled := by
  cases e with
  | get _ | incrby _ _ | expire _ _ | set _ _ => rfl
  | isSettledOrNotOpen _ | setOpen _ | addSettled _ | delOpen _ => cases he

theorem settleKeys_tables (keys : List String) (n : ℕ) :
    (attempt (settleKeys delta keys) n carried s).2.fallbackSettled = s.fallbackSettled := by
  exact Program.abort_rel (fun a b : Fallback => b.fallbackSettled = a.fallbackSettled)
    (fun _ => rfl) (fun _ _ _ hab hbc => hbc.trans hab) awaited_tables (uses_settleKeys keys) n s

/-- The reservation is settled, or the process does not know it. -/
def Fallback.Unsettleable (s : Fallback) (id : String) : Prop :=
  id ∈ s.fallbackSettled ∨ s.fallbackOpen id = none

/-- The tables after the first statements. -/
def Fallback.closed (s : Fallback) (id : String) : Fallback :=
  { s with
    fallbackOpen := Function.update s.fallbackOpen id none
    fallbackSettled := insert id s.fallbackSettled }

theorem attempt_unsettleable (h : s.Unsettleable rsv.id) (n : ℕ) :
    attempt (settleProgram rsv delta day) n carried s = (some (false, n), s) := by
  have hdone : decide (rsv.id ∈ s.fallbackSettled ∨ s.fallbackOpen rsv.id = none) = true :=
    decide_eq_true h
  simp [attempt, settleProgram, call, Program.abort, Command.awaited, Command.run, hdone]

theorem attempt_settle (h : ¬ s.Unsettleable rsv.id) (n : ℕ) :
    attempt (settleProgram rsv delta day) n carried s =
      attempt (settleKeys delta [cTokensKey rsv.client day, pTokensKey rsv.provider day,
        mTokensKey rsv.model day] >>= fun _ => .ret true) n carried (s.closed rsv.id) := by
  have hdone : decide (rsv.id ∈ s.fallbackSettled ∨ s.fallbackOpen rsv.id = none) = false :=
    decide_eq_false h
  simp only [attempt, settleProgram, call, Program.op_bind, Program.ret_bind, Program.abort,
    Command.awaited, Command.run, hdone, if_false, Bool.false_eq_true, Fallback.closed,
    Program.pure_eq]

theorem attempt_settleApplied {n : ℕ} (hn : 9 ≤ n) :
    (attempt (settleProgram rsv delta day) n carried s).1.map Prod.fst =
        some (settleApplied rsv delta day s).1 ∧
      (attempt (settleProgram rsv delta day) n carried s).2 =
        (settleApplied rsv delta day s).2 := by
  by_cases h : s.Unsettleable rsv.id
  · have hdone : rsv.id ∈ s.fallbackSettled ∨ s.fallbackOpen rsv.id = none := h
    rw [attempt_unsettleable h, settleApplied, if_pos hdone]
    exact ⟨rfl, rfl⟩
  · obtain ⟨n, rfl⟩ := Nat.exists_eq_add_of_le hn
    have hopen : ¬ (rsv.id ∈ s.fallbackSettled ∨ s.fallbackOpen rsv.id = none) := h
    set keys := [cTokensKey rsv.client day, pTokensKey rsv.provider day, mTokensKey rsv.model day]
      with hkeys
    have hloop : (settleKeys delta keys).abort Command.run Command.awaited carried (9 + n)
        (s.closed rsv.id) = (some ((), n), { s.closed rsv.id with
          counters := keys.foldl (fun c key => Function.update c key (max 0 (c key + delta)))
            s.counters }) := settleKeys_ends n
    rw [attempt_settle h, attempt, Program.abort_bind, ← hkeys, hloop, settleApplied,
      if_neg hopen, ← hkeys]
    exact ⟨rfl, rfl⟩

/-- A settle that raises has closed the reservation, so that the next one does nothing. -/
theorem settle_raises (h : ¬ s.Unsettleable rsv.id) {n : ℕ} (hn : n < 9) :
    (attempt (settleProgram rsv delta day) n carried s).1 = none ∧
      rsv.id ∈ (attempt (settleProgram rsv delta day) n carried s).2.fallbackSettled := by
  set keys := [cTokensKey rsv.client day, pTokensKey rsv.provider day, mTokensKey rsv.model day]
    with hkeys
  have hraises : (attempt (settleKeys delta keys) n carried (s.closed rsv.id)).1 = none :=
    settleKeys_raises hn
  rw [attempt_settle h, attempt, Program.abort_bind, ← hkeys, hraises]
  refine ⟨rfl, ?_⟩
  simp only [Option.elim]
  rw [settleKeys_tables]
  exact Finset.mem_insert_self _ _

theorem intact_settle (n : ℕ) : Intact (settleProgram rsv delta day) n carried s ↔
    s.Unsettleable rsv.id ∨ 9 ≤ n := by
  by_cases h : s.Unsettleable rsv.id
  · simp [Intact, attempt_unsettleable h, h]
  · rw [or_iff_right h]
    constructor
    · intro hintact
      by_contra hn
      have hafter : (attempt (settleProgram rsv delta day) n carried s).1 = none ∧
          rsv.id ∈ (attempt (settleProgram rsv delta day) n carried s).2.fallbackSettled :=
        settle_raises h (not_le.mp hn)
      obtain ⟨hraises, hsettled⟩ := hafter
      rw [hintact hraises] at hsettled
      exact h (.inl hsettled)
    · intro hn hraises
      have hends : (attempt (settleProgram rsv delta day) n carried s).1.map Prod.fst =
          some (settleApplied rsv delta day s).1 := (attempt_settleApplied hn).1
      rw [hraises] at hends
      cases hends

end Settle

/-! ### Both -/

theorem reservedTotal_nonneg (id client provider model : String) (promptEst completionCap : ℤ) :
    0 ≤ (newReservation id client provider model promptEst completionCap).reservedTotal :=
  add_nonneg (le_max_left 0 promptEst) (le_max_left 0 completionCap)

/-- **A failed admission leaves no trace exactly when it fails before an increment by more than 0
has been carried out, and a failed settle always leaves one: the reservation is closed before the
first command.** -/
theorem fallback_intact_iff (q : Quotas) (day : String) (n : ℕ) (carried : Bool) (s : Fallback) :
    (∀ id client provider model promptEst completionCap,
      let rsv := newReservation id client provider model promptEst completionCap
      Intact (admitProgram q rsv day) n carried s ↔
        Denied q rsv day s ∨ BeforeIncrements rsv.reservedTotal n carried ∨ 13 ≤ n) ∧
    ∀ rsv delta, Intact (settleProgram rsv delta day) n carried s ↔
      s.Unsettleable rsv.id ∨ 9 ≤ n :=
  ⟨fun _ _ _ _ _ _ => intact_admit (reservedTotal_nonneg ..) n, fun _ _ => intact_settle n⟩

/-- No reservation, and nothing used. -/
def Fallback.start : Fallback := ⟨fun _ => 0, fun _ => none, ∅⟩

/-- An admission whose first `expire` raises has used up its reserve, and a settle whose first
`get` raises cannot be made again. -/
theorem fallback_traces :
    (¬ ∀ n carried, Intact (admitProgram ⟨some 10, none, none⟩
      (newReservation "id" "c" "p" "m" 6 4) "20260906") n carried Fallback.start) ∧
    ¬ ∀ n carried, Intact (settleProgram (newReservation "id" "c" "p" "m" 6 4) (-10) "20260906") n
      carried (admitFallback ⟨some 10, none, none⟩ (newReservation "id" "c" "p" "m" 6 4) "20260906"
        Fallback.start).2 := by
  constructor
  · intro h
    have hkey := congrArg (fun s : Fallback => s.counters (cTokensKey "c" "20260906"))
      (h 4 false rfl)
    exact absurd hkey (by decide)
  · intro h
    have hid := congrArg Fallback.fallbackSettled (h 0 false rfl)
    exact absurd hid (by decide)

end FirewallLLM.Py.Metering
