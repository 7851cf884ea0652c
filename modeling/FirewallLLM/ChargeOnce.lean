import FirewallLLM.ClientQuota
import FirewallLLM.SettleOnce

/-! # A request is charged once

A request is charged by the settle of its reservation, or by a record when it has none.  The
handler charges it, or leaves this to the workers of the stream, of which the first to set the
flag `recorded` charges; nobody does both, and nobody does either twice.

`Standing` says this of a request, with what is allowed as its charge and whether it has been
charged.  `Standing.run` is the step lemma: an operation touches no counter, or is the one
charge. -/

namespace FirewallLLM.Chat

open Dlp (Item StreamState StreamRestore)

/-! ### Charges -/

/-- The operations on the counters. -/
def Op.meters : Op → Bool
  | .admitReq .. | .settle .. | .record .. => true
  | _ => false

/-- The charge of a request that is admitted. -/
def Settles (rsv : Reservation) : Op → Prop
  | .settle rsv' _ _ => rsv' = rsv
  | _ => False

/-- The charge of a request that is served without a reservation. -/
def Records (client : String) : Op → Prop
  | .record c .. => c = client
  | _ => False

/-- What may be a charge: a settle or a record. -/
def IsCharge (C : Op → Prop) : Prop := ∀ e, C e → e.meters = true ∧ e.isAdmission = false

theorem isCharge_settles (rsv : Reservation) : IsCharge (Settles rsv) := by
  intro e he
  cases e <;> first | exact he.elim | exact ⟨rfl, rfl⟩

theorem isCharge_records (client : String) : IsCharge (Records client) := by
  intro e he
  cases e <;> first | exact he.elim | exact ⟨rfl, rfl⟩

variable {C : Op → Prop}

/-- No charge once the flag is set. -/
def Barred : Prog Unit → Prop
  | .ret _ => True
  | .op .swapRecorded k => Barred (k true)
  | .op e k => e.meters = false ∧ ∀ r, Barred (k r)

/-- At the charge, and none after it. -/
def AtCharge (C : Op → Prop) (p : Prog Unit) : Prop :=
  ∃ e k, p = .op e k ∧ C e ∧ ∀ r, Barred (k r)

/-- A charge only right after the flag was set by the program itself. -/
def ChargesOnce (C : Op → Prop) : Prog Unit → Prop
  | .ret _ => True
  | .op .swapRecorded k => (AtCharge C (k false) ∨ Barred (k false)) ∧ Barred (k true)
  | .op e k => e.meters = false ∧ ∀ r, ChargesOnce C (k r)

/-- What the accountant charges. -/
def Accountant.Bills (C : Op → Prop) (a : Accountant) : Prop :=
  a.metering = true ∧ match a.reservation with
    | some rsv => ∀ p d, C (.settle rsv p d)
    | none => ∀ p d, C (.record a.clientId a.providerName a.model p d)

/-- The handler after the charge. -/
def Billed : Prog Reply → Prop
  | .ret reply => ∃ status out, reply = .json status out
  | .op e k => (e.plain && !e.meters) = true ∧ ∀ r, Billed (k r)

/-- The handler before the charge, which it may leave to a body. -/
def Billing (C : Op → Prop) : Prog Reply → Prop
  | .ret reply => ∀ a items, reply = .sse a items → a.Bills C
  | .op e k => (C e ∧ ∀ r, Billed (k r)) ∨
      ((e.plain && !e.meters) = true ∧ ∀ r, Billing C (k r))

/-- The handler before the admission. -/
def Arriving (client : String) (body : ChatCompletionRequest) : Prog Reply → Prop
  | .ret reply => ∃ status out, reply = .json status out
  | .op (.admitReq c _ _ est cap) k =>
      (c = client ∧ est = body.promptEst.toInt64 ∧ cap = body.maxTokens) ∧
        (∀ rsv, Billing (Settles rsv) (k (.ok rsv))) ∧
        (∀ scope limit, Billed (k (.error (.quotaExceeded scope limit)))) ∧
        ∀ msg, Billing (Records client) (k (.error (.backendUnavailable msg)))
  | .op e k => (e.plain && !e.meters) = true ∧ ∀ r, Arriving client body (k r)

/-! ### The programs of a stream -/

namespace Accountant

variable {a : Accountant}

theorem bills_settles {rsv : Reservation} (hm : a.metering = true)
    (hr : a.reservation = some rsv) : a.Bills (Settles rsv) := by
  unfold Bills
  rw [hr]
  exact ⟨hm, fun _ _ => rfl⟩

theorem bills_records (hm : a.metering = true) (hr : a.reservation = none) :
    a.Bills (Records a.clientId) := by
  unfold Bills
  rw [hr]
  exact ⟨hm, fun _ _ => rfl⟩

theorem Bills.settleOrRecord (h : a.Bills C) (prompt done : UInt64) :
    ∃ e k, a.settleOrRecord prompt done = .op e k ∧ C e ∧ ∀ r, k r = .ret () := by
  obtain ⟨hm, hc⟩ := h
  unfold Accountant.settleOrRecord
  rw [if_pos hm]
  cases hr : a.reservation with
  | none =>
      rw [hr] at hc
      exact ⟨_, _, rfl, hc _ _, fun _ => rfl⟩
  | some rsv =>
      rw [hr] at hc
      exact ⟨_, _, rfl, hc _ _, fun _ => rfl⟩

theorem Bills.atCharge (h : a.Bills C) (prompt done : UInt64) {f : Unit → Prog Unit}
    (hf : Barred (f ())) : AtCharge C (a.settleOrRecord prompt done >>= f) := by
  obtain ⟨e, k, heq, he, hk⟩ := h.settleOrRecord prompt done
  rw [heq]
  refine ⟨e, fun r => k r >>= f, rfl, he, fun r => ?_⟩
  show Barred (k r >>= f)
  rw [hk r]
  exact hf

theorem Bills.settleOnce (h : a.Bills C) (prompt done : UInt64) {f : Unit → Prog Unit}
    (hf : Barred (f ())) : ChargesOnce C (a.settleOnce prompt done >>= f) :=
  ⟨.inl (h.atCharge prompt done hf), hf⟩

theorem Bills.terminal (h : a.Bills C) : ChargesOnce C a.terminal := by
  refine ⟨rfl, fun st => ?_⟩
  show ChargesOnce C (a.settleOnce (a.usage st).1 (a.usage st).2.1 >>= fun _ => _)
  refine h.settleOnce _ _ ⟨rfl, fun _ => ⟨rfl, fun _ => ⟨rfl, fun _ => ⟨rfl, fun _ => ?_⟩⟩⟩⟩
  exact ⟨rfl, fun _ => ⟨rfl, fun _ => trivial⟩⟩

theorem Bills.bodyStream (h : a.Bills C) (items : List Item) :
    ChargesOnce C (a.bodyStream items) := by
  induction items with
  | nil =>
      refine ⟨rfl, fun _ => ⟨rfl, fun flushed => ?_⟩⟩
      show ChargesOnce C (sendFlushed flushed >>= fun _ => a.terminal)
      unfold sendFlushed
      split_ifs
      · exact h.terminal
      · exact ⟨rfl, fun _ => h.terminal⟩
  | cons item items ih =>
      refine ⟨rfl, fun _ => ⟨rfl, fun event => ?_⟩⟩
      cases item with
      | error err => exact ⟨rfl, fun _ => ⟨rfl, fun _ => ih⟩⟩
      | ok chunk => exact ⟨rfl, fun _ => ih⟩

theorem Bills.dropTask (h : a.Bills C) (st : StreamState) : ChargesOnce C (a.dropTask st) := by
  show ChargesOnce C (a.settleOnce (a.usage st).1 (a.usage st).2.1 >>= fun _ => _)
  exact h.settleOnce _ _ ⟨rfl, fun _ => trivial⟩

end Accountant

/-! ### The handler -/

theorem billing_settleFailed {a : Accountant} (h : a.Bills C) (promptEst : UInt64)
    {f : Unit → Prog Reply} (hf : Billed (f ())) (hf' : Billing C (f ())) :
    Billing C (settleFailed a promptEst >>= f) := by
  obtain ⟨hm, hc⟩ := h
  unfold settleFailed
  rw [if_pos hm]
  cases hr : a.reservation with
  | none => exact hf'
  | some rsv =>
      rw [hr] at hc
      exact .inl ⟨hc _ _, fun _ => hf⟩

theorem billing_settleOrRecord {a : Accountant} (h : a.Bills C) (prompt done : UInt64)
    {f : Unit → Prog Reply} (hf : Billed (f ())) :
    Billing C (a.settleOrRecord prompt done >>= f) := by
  obtain ⟨e, k, heq, he, hk⟩ := h.settleOrRecord prompt done
  rw [heq]
  refine .inl ⟨he, fun r => ?_⟩
  show Billed (k r >>= f)
  rw [hk r]
  exact hf

theorem billing_streamResponse {a : Accountant} (h : a.Bills C) (payload : Json)
    (session : StreamRestore) : Billing C (streamResponse a payload session) := by
  have h' : Accountant.Bills C { a with requestText := promptText payload } := h
  refine .inr ⟨rfl, fun res => ?_⟩
  cases res with
  | ok items =>
      refine .inr ⟨rfl, fun _ => ?_⟩
      rintro a' items' ⟨⟩
      exact h'
  | error err =>
      refine billing_settleFailed h' _ ?_ ?_
      · exact ⟨rfl, fun _ => ⟨rfl, fun _ => ⟨_, _, rfl⟩⟩⟩
      · refine .inr ⟨rfl, fun _ => .inr ⟨rfl, fun _ => ?_⟩⟩
        rintro a' items' ⟨⟩

theorem billing_chatResponse {g : Gateway} {a : Accountant} (h : a.Bills C)
    (requested concrete : String) (payload : Json) (chain : Inspectors.DlpState)
    (promptEst : UInt64) :
    Billing C (chatResponse g a requested concrete payload chain promptEst) := by
  refine .inr ⟨rfl, fun res => ?_⟩
  cases res with
  | ok completion =>
      simp only [Program.bind]
      cases tagRouted requested concrete completion with
      | none => exact .inr ⟨rfl, fun r => r.elim⟩
      | some completion =>
          refine .inr ⟨rfl, fun _ => ?_⟩
          refine billing_settleOrRecord h _ _ ?_
          exact ⟨rfl, fun _ => ⟨rfl, fun _ => ⟨_, _, rfl⟩⟩⟩
  | error err =>
      refine billing_settleFailed h _ ?_ ?_
      · exact ⟨rfl, fun _ => ⟨rfl, fun _ => ⟨_, _, rfl⟩⟩⟩
      · refine .inr ⟨rfl, fun _ => .inr ⟨rfl, fun _ => ?_⟩⟩
        rintro a' items' ⟨⟩

theorem billing_serve {g : Gateway} {a : Accountant} (h : a.Bills C)
    (body : ChatCompletionRequest) (concrete : String) (payload : Json)
    (chain : Inspectors.DlpState) (promptEst : UInt64) :
    Billing C (serve g a body concrete payload chain promptEst) := by
  unfold serve
  split_ifs
  · exact billing_streamResponse h payload _
  · exact billing_chatResponse h body.model concrete payload chain promptEst

theorem arriving_admission {g : Gateway} {a : Accountant} {clientId : String}
    (hg : g.metering = true) (hm : a.metering = true) (hr : a.reservation = none)
    (hclient : a.clientId = clientId) (body : ChatCompletionRequest) (concrete : String)
    (payload : Json) (chain : Inspectors.DlpState) :
    Arriving clientId body (admission g a body concrete payload chain) := by
  subst hclient
  unfold admission
  rw [if_pos hg]
  refine ⟨⟨rfl, rfl, rfl⟩, fun rsv => ?_, fun scope limit => ?_, fun msg => ?_⟩
  · exact billing_serve (a := { a with reservation := some rsv })
      (Accountant.bills_settles hm rfl) ..
  · exact ⟨rfl, fun _ => ⟨rfl, fun _ => ⟨_, _, rfl⟩⟩⟩
  · simp only [Program.bind]
    by_cases hclosed : g.backendFailClosed = true
    · rw [if_pos hclosed]
      refine .inr ⟨rfl, fun _ => .inr ⟨rfl, fun _ => ?_⟩⟩
      rintro a' items' ⟨⟩
    · rw [if_neg hclosed]
      exact billing_serve (Accountant.bills_records hm hr) ..

theorem arriving_chatCompletions {g : Gateway} (hg : g.metering = true)
    (requestId clientId : String) (body : ChatCompletionRequest) :
    Arriving clientId body (chatCompletions g requestId clientId body) := by
  refine ⟨rfl, fun res => ?_⟩
  cases res with
  | error err =>
      cases err with
      | blocked message => exact ⟨rfl, fun _ => ⟨rfl, fun _ => ⟨_, _, rfl⟩⟩⟩
      | budgetExhausted message => exact ⟨rfl, fun _ => ⟨rfl, fun _ => ⟨_, _, rfl⟩⟩⟩
  | ok target =>
      obtain ⟨providerName, concrete⟩ := target
      simp only [Program.bind]
      cases validate g body with
      | some err => exact ⟨_, _, rfl⟩
      | none =>
          by_cases hp : providerName ∉ g.providers
          · simp only [if_pos hp]
            exact ⟨rfl, fun _ => ⟨_, _, rfl⟩⟩
          · simp only [if_neg hp]
            refine ⟨rfl, fun out => ?_⟩
            simp only [Program.bind]
            cases out.result with
            | error err => exact ⟨rfl, fun _ => ⟨rfl, fun _ => ⟨_, _, rfl⟩⟩⟩
            | ok chain =>
                refine arriving_admission hg ?_ ?_ ?_ ..
                · exact hg
                · rfl
                · rfl

/-! ### One operation -/

/-- What an operation leaves alone, but for the cells of the stream, the reservation, the audit
flag and the log. -/
structure Still (s s' : State) : Prop where
  handler : s'.handler = s.handler
  body : s'.body = s.body
  accountant : s'.accountant = s.accountant
  tasks : s'.tasks = s.tasks
  recorded : s'.recorded = s.recorded

section Operation

variable {s s' : State} {o : Oracle} {e : Op} {r : Res e}

theorem perform_still (h : perform s o e = some (r, s')) (hswap : e ≠ .swapRecorded)
    (hguard : e ≠ .dropGuard) : Still s s' := by
  cases e with
  | admitReq =>
      simp only [perform, Option.map_eq_some_iff, Prod.mk.injEq] at h
      obtain ⟨r', _, _, rfl⟩ := h
      cases r' <;> exact ⟨rfl, rfl, rfl, rfl, rfl⟩
  | settle =>
      obtain ⟨hframe, hrec, -, htasks⟩ := perform_settle h
      exact ⟨hframe.handler, hframe.body, hframe.accountant, htasks, hrec⟩
  | swapRecorded => exact absurd rfl hswap
  | dropGuard => exact absurd rfl hguard
  | _ =>
      have hsame := perform_plain h rfl
      exact ⟨hsame.handler, hsame.body, hsame.accountant, hsame.tasks, hsame.recorded⟩

theorem still_of_quiet (h : perform s o e = some (r, s'))
    (he : (e.plain && !e.meters) = true) : Still s s' := by
  refine perform_still h ?_ ?_
  · rintro rfl
    cases he
  · rintro rfl
    cases he

theorem still_of_charge (hC : IsCharge C) (h : perform s o e = some (r, s')) (he : C e) :
    Still s s' := by
  refine perform_still h ?_ ?_
  · rintro rfl
    cases (hC _ he).1
  · rintro rfl
    cases (hC _ he).1

theorem not_meters_of_quiet (he : (e.plain && !e.meters) = true) : e.meters = false := by
  simpa using (Bool.and_eq_true_iff.mp he).2

end Operation

/-! ### The workers of a stream -/

/-- At most one program is at the charge, and the others charge nothing. -/
def AtMostOne (C : Op → Prop) : List (Prog Unit) → Prop
  | [] => True
  | p :: ps => (AtCharge C p ∧ ∀ q ∈ ps, Barred q) ∨ (Barred p ∧ AtMostOne C ps)

theorem atMostOne_append_cons {l ps : List (Prog Unit)} {p : Prog Unit} :
    AtMostOne C (l ++ p :: ps) ↔
      (AtCharge C p ∧ ∀ q ∈ l ++ ps, Barred q) ∨ (Barred p ∧ AtMostOne C (l ++ ps)) := by
  induction l with
  | nil => exact Iff.rfl
  | cons p' l ih =>
      simp only [List.cons_append, AtMostOne, ih, List.mem_append, List.mem_cons]
      grind

theorem atMostOne_of_barred {ps : List (Prog Unit)} (h : ∀ q ∈ ps, Barred q) :
    AtMostOne C ps := by
  induction ps with
  | nil => trivial
  | cons p ps ih =>
      obtain ⟨hp, hps⟩ := List.forall_mem_cons.mp h
      exact .inr ⟨hp, ih hps⟩

theorem AtMostOne.append {ps new : List (Prog Unit)} (h : AtMostOne C ps)
    (hnew : ∀ q ∈ new, Barred q) : AtMostOne C (ps ++ new) := by
  induction ps with
  | nil => exact atMostOne_of_barred hnew
  | cons p ps ih =>
      rcases h with ⟨hp, hps⟩ | ⟨hp, hps⟩
      · exact .inl ⟨hp, List.forall_mem_append.mpr ⟨hps, hnew⟩⟩
      · exact .inr ⟨hp, ih hps⟩

/-- Once the flag is set, a program charges nothing. -/
theorem barred_of_once {p : Prog Unit} (h : ChargesOnce C p) : Barred p := by
  induction p with
  | ret a => trivial
  | op e k ih =>
      cases e with
      | swapRecorded => exact h.2
      | _ => exact ⟨h.1, fun r => ih r (h.2 r)⟩

/-- The workers `ps` of a stream: nobody has set the flag; one may be at the charge; or the
stream is charged.  The indices are the flag and whether the stream is charged. -/
inductive Workers (C : Op → Prop) (ps : List (Prog Unit)) : Bool → Bool → Prop where
  | opened (once : ∀ p ∈ ps, ChargesOnce C p) : Workers C ps false false
  | charging (one : AtMostOne C ps) : Workers C ps true false
  | closed (barred : ∀ p ∈ ps, Barred p) : Workers C ps true true

section Workers

variable {s s' : State} {o : Oracle} {e : Op} {r : Res e} {k : Res e → Prog Unit}
  {l ps : List (Prog Unit)} {recorded charged : Bool}

theorem Barred.asked (h : Barred (.op e k)) : e.meters = false := by
  cases e <;> first | rfl | exact h.1

theorem ChargesOnce.asked (h : ChargesOnce C (.op e k)) : e.meters = false := by
  cases e <;> first | rfl | exact h.1

theorem Barred.step (h : Barred (.op e k)) (hrec : s.recorded = true)
    (hp : perform s o e = some (r, s')) : Barred (k r) ∧ s'.recorded = true := by
  cases e with
  | swapRecorded =>
      obtain ⟨hr, -, hset, -⟩ := perform_swapRecorded hp
      subst hr
      rw [hrec]
      exact ⟨h, hset⟩
  | dropGuard => exact ⟨h.2 r, (perform_dropGuard hp).2.1.trans hrec⟩
  | _ => exact ⟨h.2 r, (perform_still hp nofun nofun).recorded.trans hrec⟩

theorem ChargesOnce.step (h : ChargesOnce C (.op e k)) (hrec : s.recorded = false)
    (hp : perform s o e = some (r, s')) :
    (ChargesOnce C (k r) ∧ s'.recorded = false) ∨
      ((AtCharge C (k r) ∨ Barred (k r)) ∧ s'.recorded = true) := by
  cases e with
  | swapRecorded =>
      obtain ⟨hr, -, hset, -⟩ := perform_swapRecorded hp
      subst hr
      rw [hrec]
      exact .inr ⟨h.1, hset⟩
  | dropGuard => exact .inl ⟨h.2 r, (perform_dropGuard hp).2.1.trans hrec⟩
  | _ => exact .inl ⟨h.2 r, (perform_still hp nofun nofun).recorded.trans hrec⟩

/-- A worker touches no counter, or charges the stream for the first time. -/
theorem Workers.asked (h : Workers C (l ++ .op e k :: ps) recorded charged) :
    e.meters = false ∨ (C e ∧ charged = false) := by
  cases h with
  | opened honce => exact .inl (forall_mem_middle.mp honce).1.asked
  | charging hone =>
      rcases atMostOne_append_cons.mp hone with ⟨⟨e', k', heq, he, -⟩, -⟩ | ⟨hb, -⟩
      · cases heq
        exact .inr ⟨he, rfl⟩
      · exact .inl hb.asked
  | closed hb => exact .inl (forall_mem_middle.mp hb).1.asked

theorem Workers.step (hC : IsCharge C) (h : Workers C (l ++ .op e k :: ps) s.recorded charged)
    (hp : perform s o e = some (r, s')) {new : List (Prog Unit)}
    (hnew : ∀ q ∈ new, ChargesOnce C q) :
    Workers C (l ++ k r :: ps ++ new) s'.recorded (charged || e.meters) := by
  have hbarred : ∀ q ∈ new, Barred q := fun q hq => barred_of_once (hnew q hq)
  -- the barred programs stay so when one of them goes on
  have hall : (∀ q ∈ l ++ ps, Barred q) → Barred (k r) → ∀ q ∈ l ++ k r :: ps ++ new, Barred q :=
    fun hrest hk => List.forall_mem_append.mpr ⟨forall_mem_middle.mpr ⟨hk, hrest⟩, hbarred⟩
  generalize hrec : s.recorded = recorded at h
  cases h with
  | opened honce =>
      obtain ⟨hg, hrest⟩ := forall_mem_middle.mp honce
      rw [hg.asked, Bool.or_false]
      rcases hg.step hrec hp with ⟨hk, hrec'⟩ | ⟨hk, hrec'⟩
      · rw [hrec']
        exact .opened (List.forall_mem_append.mpr ⟨forall_mem_middle.mpr ⟨hk, hrest⟩, hnew⟩)
      · have hrest' : ∀ q ∈ l ++ ps, Barred q := fun q hq => barred_of_once (hrest q hq)
        rw [hrec']
        refine .charging (AtMostOne.append (atMostOne_append_cons.mpr ?_) hbarred)
        rcases hk with hk | hk
        · exact .inl ⟨hk, hrest'⟩
        · exact .inr ⟨hk, atMostOne_of_barred hrest'⟩
  | charging hone =>
      rcases atMostOne_append_cons.mp hone with ⟨⟨e', k', heq, he, hk⟩, hrest⟩ | ⟨hb, hrest⟩
      · cases heq
        rw [(hC e he).1, (still_of_charge hC hp he).recorded, hrec]
        exact .closed (hall hrest (hk r))
      · obtain ⟨hk, hrec'⟩ := hb.step hrec hp
        rw [hb.asked, hrec', Bool.or_false]
        exact .charging (AtMostOne.append (atMostOne_append_cons.mpr (.inr ⟨hk, hrest⟩)) hbarred)
  | closed hb =>
      obtain ⟨hb, hrest⟩ := forall_mem_middle.mp hb
      obtain ⟨hk, hrec'⟩ := hb.step hrec hp
      rw [hrec', Bool.true_or]
      exact .closed (hall hrest hk)

theorem Workers.drop {b : Prog Unit} {ps new : List (Prog Unit)}
    (h : Workers C (b :: ps) recorded charged) (hnew : ∀ q ∈ new, ChargesOnce C q) :
    Workers C (ps ++ new) recorded charged := by
  have hbarred : ∀ q ∈ new, Barred q := fun q hq => barred_of_once (hnew q hq)
  cases h with
  | opened honce =>
      exact .opened (List.forall_mem_append.mpr ⟨(List.forall_mem_cons.mp honce).2, hnew⟩)
  | charging hone =>
      rcases hone with ⟨-, hrest⟩ | ⟨-, hrest⟩
      · exact .charging (AtMostOne.append (atMostOne_of_barred hrest) hbarred)
      · exact .charging (hrest.append hbarred)
  | closed hb =>
      exact .closed (List.forall_mem_append.mpr ⟨(List.forall_mem_cons.mp hb).2, hbarred⟩)

end Workers

/-! ### Where a request stands -/

/-- Where a request stands that may still be charged, and whether it has been. -/
inductive Standing (C : Op → Prop) (s : State) : Bool → Prop where
  | billing {p : Prog Reply} (handler : s.handler = some p) (bills : Billing C p)
      (body : s.body = none) (tasks : s.tasks = []) (recorded : s.recorded = false) :
      Standing C s false
  | billed {charged : Bool} (handler : ∀ p, s.handler = some p → Billed p)
      (body : s.body = none) (tasks : s.tasks = []) : Standing C s charged
  | streaming {a : Accountant} {charged : Bool} (handler : s.handler = none)
      (accountant : s.accountant = some a) (bills : a.Bills C)
      (workers : Workers C (s.body.toList ++ s.tasks) s.recorded charged) : Standing C s charged

section Standing

variable {s : State} {charged : Bool}

theorem next_handler {p : Prog Reply} (h : s.handler = some p) : s.next .handler = p.next := by
  simp only [State.next, h, Option.bind_some]

theorem next_of_no_worker (hb : s.body = none) (ht : s.tasks = []) {t : Thread} {e : Op}
    (hn : s.next t = some e) : t = .handler := by
  cases t with
  | handler => rfl
  | body => simp [State.next, hb] at hn
  | task i => simp [State.next, ht] at hn

theorem run_handler_op {e : Op} {k : Res e → Prog Reply} (h : s.handler = some (.op e k))
    (o : Oracle) : (perform s o e = none ∧ step s (.run .handler o) = s) ∨
      ∃ r s', perform s o e = some (r, s') ∧
        step s (.run .handler o) = { s' with handler := some (k r) } := by
  simp only [step, h, Option.bind_some, advance]
  cases hp : perform s o e with
  | none => exact .inl ⟨rfl, rfl⟩
  | some x => exact .inr ⟨x.1, x.2, rfl, rfl⟩

theorem run_body_op {e : Op} {k : Res e → Prog Unit} (h : s.body = some (.op e k))
    (o : Oracle) : (perform s o e = none ∧ step s (.run .body o) = s) ∨
      ∃ r s', perform s o e = some (r, s') ∧
        step s (.run .body o) = { s' with body := some (k r) } := by
  simp only [step, h, Option.bind_some, advance]
  cases hp : perform s o e with
  | none => exact .inl ⟨rfl, rfl⟩
  | some x => exact .inr ⟨x.1, x.2, rfl, rfl⟩

theorem run_task_op {i : ℕ} {e : Op} {k : Res e → Prog Unit} (h : s.tasks[i]? = some (.op e k))
    (o : Oracle) : (perform s o e = none ∧ step s (.run (.task i) o) = s) ∨
      ∃ r s', perform s o e = some (r, s') ∧
        step s (.run (.task i) o) = { s' with tasks := s'.tasks.set i (k r) } := by
  simp only [step, h, Option.bind_some, advance]
  cases hp : perform s o e with
  | none => exact .inl ⟨rfl, rfl⟩
  | some x => exact .inr ⟨x.1, x.2, rfl, rfl⟩

theorem run_of_next {t : Thread} {e : Op} (hn : s.next t = some e) (o : Oracle) :
    (perform s o e = none ∧ step s (.run t o) = s) ∨
      ∃ r s', perform s o e = some (r, s') ∧ (step s (.run t o)).log = s'.log := by
  cases t with
  | handler =>
      obtain ⟨p, hh, hpn⟩ := Option.bind_eq_some_iff.mp hn
      cases p with
      | ret reply => cases hpn
      | op e' k =>
          cases hpn
          rcases run_handler_op hh o with hnone | ⟨r, s', hperform, hstep⟩
          · exact .inl hnone
          · exact .inr ⟨r, s', hperform, by rw [hstep]⟩
  | body =>
      obtain ⟨p, hb, hpn⟩ := Option.bind_eq_some_iff.mp hn
      cases p with
      | ret u => cases hpn
      | op e' k =>
          cases hpn
          rcases run_body_op hb o with hnone | ⟨r, s', hperform, hstep⟩
          · exact .inl hnone
          · exact .inr ⟨r, s', hperform, by rw [hstep]⟩
  | task i =>
      obtain ⟨p, hi, hpn⟩ := Option.bind_eq_some_iff.mp hn
      cases p with
      | ret u => cases hpn
      | op e' k =>
          cases hpn
          rcases run_task_op hi o with hnone | ⟨r, s', hperform, hstep⟩
          · exact .inl hnone
          · exact .inr ⟨r, s', hperform, by rw [hstep]⟩

theorem tasks_split {i : ℕ} {p : Prog Unit} (h : s.tasks[i]? = some p) :
    ∃ l ps, s.tasks = l ++ p :: ps ∧ l.length = i := by
  obtain ⟨hlt, hget⟩ := List.getElem?_eq_some_iff.mp h
  refine ⟨s.tasks.take i, s.tasks.drop (i + 1), ?_, List.length_take_of_le hlt.le⟩
  rw [← hget, ← List.drop_eq_getElem_cons hlt, List.take_append_drop]

theorem once_guardTasks {a : Accountant} (ha : s.accountant = some a) (hb : a.Bills C) :
    (∀ q ∈ s.guardTasks, ChargesOnce C q) ∧ ∀ q ∈ s.bodyTasks, ChargesOnce C q := by
  have hdrop := hb.dropTask s.stream
  constructor
  · unfold State.guardTasks
    rw [ha]
    cases s.guard with
    | true => simpa using hdrop
    | false => simp
  · unfold State.bodyTasks
    rw [ha]
    simpa using hdrop

theorem spawned_of_perform {a : Accountant} (ha : s.accountant = some a) (hb : a.Bills C)
    {o : Oracle} {e : Op} {r : Res e} {s' : State} (hp : perform s o e = some (r, s')) :
    s'.handler = s.handler ∧ s'.body = s.body ∧ s'.accountant = s.accountant ∧
      ∃ new, s'.tasks = s.tasks ++ new ∧ ∀ q ∈ new, ChargesOnce C q := by
  obtain ⟨hh, hbody, hacc, htasks⟩ := perform_calls hp
  refine ⟨hh, hbody, hacc, ?_⟩
  rcases htasks with htasks | ⟨-, htasks⟩
  · exact ⟨[], by rw [htasks, List.append_nil], by simp⟩
  · exact ⟨s.guardTasks, htasks, (once_guardTasks ha hb).1⟩

/-- What a thread asks for touches no counter, or is the one charge. -/
theorem Standing.asked (h : Standing C s charged) {t : Thread} {e : Op}
    (hn : s.next t = some e) : e.meters = false ∨ (C e ∧ charged = false) := by
  cases h with
  | @billing p hh hbill hb ht =>
      obtain rfl := next_of_no_worker hb ht hn
      rw [next_handler hh] at hn
      cases p with
      | ret reply => cases hn
      | op e' k =>
          cases hn
          rcases hbill with ⟨he, -⟩ | ⟨he, -⟩
          · exact .inr ⟨he, rfl⟩
          · exact .inl (not_meters_of_quiet he)
  | billed hh hb ht =>
      obtain rfl := next_of_no_worker hb ht hn
      obtain ⟨p, hp, hpn⟩ := Option.bind_eq_some_iff.mp hn
      cases p with
      | ret reply => cases hpn
      | op e' k =>
          cases hpn
          exact .inl (not_meters_of_quiet (hh _ hp).1)
  | streaming hh ha hbills hw =>
      cases t with
      | handler =>
          simp only [State.next, hh, Option.bind_none] at hn
          cases hn
      | body =>
          obtain ⟨p, hp, hpn⟩ := Option.bind_eq_some_iff.mp hn
          rw [hp] at hw
          cases p with
          | ret u => cases hpn
          | op e' k =>
              cases hpn
              exact Workers.asked (l := []) hw
      | task i =>
          obtain ⟨p, hp, hpn⟩ := Option.bind_eq_some_iff.mp hn
          obtain ⟨l, ps, htasks, -⟩ := tasks_split hp
          cases p with
          | ret u => cases hpn
          | op e' k =>
              cases hpn
              rw [htasks, ← List.append_assoc] at hw
              exact hw.asked

/-- **A thread goes on**: it touches no counter, or makes the one charge. -/
theorem Standing.run (hC : IsCharge C) (h : Standing C s charged) {t : Thread} {e : Op}
    (hn : s.next t = some e) (o : Oracle) :
    (perform s o e = none ∧ step s (.run t o) = s) ∨
      Standing C (step s (.run t o)) (charged || e.meters) := by
  cases h with
  | @billing p hh hbill hb ht hrec =>
      obtain rfl := next_of_no_worker hb ht hn
      rw [next_handler hh] at hn
      cases p with
      | ret reply => cases hn
      | op e' k =>
          cases hn
          rcases run_handler_op hh o with hnone | ⟨r, s', hp, hstep⟩
          · exact .inl hnone
          · rw [hstep]
            rcases hbill with ⟨he, hk⟩ | ⟨he, hk⟩
            · have hstill := still_of_charge hC hp he
              refine .inr (.billed ?_ (hstill.body.trans hb) (hstill.tasks.trans ht))
              rintro p ⟨⟩
              exact hk r
            · have hstill := still_of_quiet hp he
              rw [not_meters_of_quiet he]
              exact .inr (.billing rfl (hk r) (hstill.body.trans hb) (hstill.tasks.trans ht)
                (hstill.recorded.trans hrec))
  | billed hh hb ht =>
      obtain rfl := next_of_no_worker hb ht hn
      obtain ⟨p, hp, hpn⟩ := Option.bind_eq_some_iff.mp hn
      cases p with
      | ret reply => cases hpn
      | op e' k =>
          cases hpn
          rcases run_handler_op hp o with hnone | ⟨r, s', hperform, hstep⟩
          · exact .inl hnone
          · obtain ⟨he, hk⟩ := hh _ hp
            have hstill := still_of_quiet hperform he
            rw [hstep]
            refine .inr (.billed ?_ (hstill.body.trans hb) (hstill.tasks.trans ht))
            rintro p ⟨⟩
            exact hk r
  | streaming hh ha hbills hw =>
      cases t with
      | handler =>
          simp only [State.next, hh, Option.bind_none] at hn
          cases hn
      | body =>
          obtain ⟨p, hp, hpn⟩ := Option.bind_eq_some_iff.mp hn
          cases p with
          | ret u => cases hpn
          | op e' k =>
              cases hpn
              rw [hp] at hw
              rcases run_body_op hp o with hnone | ⟨r, s', hperform, hstep⟩
              · exact .inl hnone
              · obtain ⟨hh', -, ha', new, htasks, hnew⟩ := spawned_of_perform ha hbills hperform
                rw [hstep]
                refine .inr (.streaming (hh'.trans hh) (ha'.trans ha) hbills ?_)
                show Workers C (k r :: s'.tasks) s'.recorded _
                rw [htasks]
                exact Workers.step (l := []) hC hw hperform hnew
      | task i =>
          obtain ⟨p, hp, hpn⟩ := Option.bind_eq_some_iff.mp hn
          cases p with
          | ret u => cases hpn
          | op e' k =>
              cases hpn
              rcases run_task_op hp o with hnone | ⟨r, s', hperform, hstep⟩
              · exact .inl hnone
              · obtain ⟨hh', hb', ha', new, htasks, hnew⟩ := spawned_of_perform ha hbills hperform
                obtain ⟨l, ps, hl, rfl⟩ := tasks_split hp
                rw [hl, ← List.append_assoc] at hw
                have hgo := hw.step hC hperform hnew
                rw [hstep]
                refine .inr (.streaming (hh'.trans hh) (ha'.trans ha) hbills ?_)
                show Workers C (s'.body.toList ++ s'.tasks.set l.length (k r)) s'.recorded _
                simpa only [htasks, hl, hb', List.append_assoc, List.cons_append,
                  List.set_append_right _ _ (Nat.le_refl _), Nat.sub_self, List.set_cons_zero]
                  using hgo

theorem step_of_next_none {t : Thread} (hn : s.next t = none) (o : Oracle) :
    step s (.run t o) = s := by
  cases t with
  | handler =>
      cases hh : s.handler with
      | none => exact run_handler_none hh o
      | some p =>
          rw [next_handler hh] at hn
          cases p with
          | ret reply => simp only [step, hh, Option.bind_some, advance]
          | op e k => cases hn
  | body =>
      cases hb : s.body with
      | none => exact run_body_none hb o
      | some p =>
          simp only [State.next, hb, Option.bind_some] at hn
          cases p with
          | ret u => simp only [step, hb, Option.bind_some, advance]
          | op e k => cases hn
  | task i =>
      cases hi : s.tasks[i]? with
      | none => simp only [step, hi, Option.bind_none]
      | some p =>
          simp only [State.next, hi, Option.bind_some] at hn
          cases p with
          | ret u => simp only [step, hi, Option.bind_some, advance]
          | op e k => cases hn

theorem billed_of_gone (h : s.handler = none) : ∀ p, s.handler = some p → Billed p := by
  intro p hp
  cases h.symm.trans hp

theorem Standing.returned (h : Standing C s charged) :
    Standing C (step s .returned) charged := by
  cases h with
  | @billing p hh hbill hb ht hrec =>
      simp only [step, hh]
      cases p with
      | op e k => exact .billing hh hbill hb ht hrec
      | ret reply =>
          cases reply with
          | json status out => exact .billed (billed_of_gone rfl) hb ht
          | sse a items =>
              have ha := hbill a items rfl
              refine .streaming rfl rfl ha ?_
              rw [hrec]
              refine .opened ?_
              simpa [ht] using ha.bodyStream items
  | billed hh hb ht =>
      simp only [step]
      split
      · rename_i a items hp
        obtain ⟨status, out, heq⟩ := hh _ hp
        cases heq
      · exact .billed (billed_of_gone rfl) hb ht
      · exact .billed hh hb ht
  | streaming hh ha hbills hw =>
      simp only [step, hh]
      exact .streaming hh ha hbills hw

theorem Standing.dropHandler (h : Standing C s charged) :
    Standing C (step s .dropHandler) charged := by
  simp only [step]
  split
  · split_ifs
    · rename_i e k hp _
      cases h with
      | billing hh hbill hb ht hrec => exact .billed (billed_of_gone rfl) hb ht
      | billed hh hb ht => exact .billed (billed_of_gone rfl) hb ht
      | streaming hh ha hbills hw =>
          rw [hp] at hh
          cases hh
    · exact h
  · exact h

theorem Standing.dropBody (h : Standing C s charged) :
    Standing C (step s .dropBody) charged := by
  simp only [step]
  split
  · rename_i b hb
    split_ifs
    · cases h with
      | billing hh hbill hb' => cases hb.symm.trans hb'
      | billed hh hb' => cases hb.symm.trans hb'
      | streaming hh ha hbills hw =>
          obtain ⟨hguard, hbody⟩ := once_guardTasks ha hbills
          rw [hb] at hw
          refine .streaming hh ha hbills ?_
          have hgo := Workers.drop hw (List.forall_mem_append.mpr ⟨hguard, hbody⟩)
          show Workers C (s.tasks ++ s.guardTasks ++ s.bodyTasks) s.recorded charged
          rw [List.append_assoc]
          exact hgo
    · exact h
  · exact h

theorem Standing.other (h : Standing C s charged) {ev : RunEvent}
    (hev : ∀ t o, ev ≠ .run t o) : Standing C (step s ev) charged := by
  cases ev with
  | run t o => exact absurd rfl (hev t o)
  | returned => exact h.returned
  | dropHandler => exact h.dropHandler
  | dropBody => exact h.dropBody

end Standing

/-! ### The admission -/

/-- A request before its admission. -/
structure Arrived (client : String) (body : ChatCompletionRequest) (s : State) : Prop where
  handler : ∃ p, s.handler = some p ∧ Arriving client body p
  body : s.body = none
  tasks : s.tasks = []
  recorded : s.recorded = false

/-- By what a request is charged, according to its admission. -/
def ChargedBy (client : String) (s : State) : Except MeteringError Reservation → Prop
  | .ok rsv => Standing (Settles rsv) s false
  | .error _ => Standing (Records client) s false

section Arrived

variable {s : State} {client : String} {body : ChatCompletionRequest}

theorem arrived_init {g : Gateway} (hg : g.metering = true) (requestId client : String)
    (body : ChatCompletionRequest) : Arrived client body (init g requestId client body) :=
  ⟨⟨_, rfl, arriving_chatCompletions hg requestId client body⟩, rfl, rfl, rfl⟩

/-- The first operation on a counter is the admission. -/
theorem Arrived.asked (h : Arrived client body s) {t : Thread} {e : Op}
    (hn : s.next t = some e) : e.meters = false ∨ ∃ provider model,
      e = .admitReq client provider model body.promptEst.toInt64 body.maxTokens := by
  obtain ⟨p, hh, hp⟩ := h.handler
  obtain rfl := next_of_no_worker h.body h.tasks hn
  rw [next_handler hh] at hn
  cases p with
  | ret reply => cases hn
  | op e' k =>
      cases hn
      cases e with
      | admitReq c provider model est cap =>
          obtain ⟨⟨rfl, rfl, rfl⟩, -⟩ := hp
          exact .inr ⟨provider, model, rfl⟩
      | _ => exact .inl (not_meters_of_quiet hp.1)

theorem Arrived.run (h : Arrived client body s) {t : Thread} {e : Op} (hn : s.next t = some e)
    (he : e.meters = false) (o : Oracle) : Arrived client body (step s (.run t o)) := by
  obtain ⟨p, hh, hp⟩ := h.handler
  obtain rfl := next_of_no_worker h.body h.tasks hn
  rw [next_handler hh] at hn
  cases p with
  | ret reply => cases hn
  | op e' k =>
      cases hn
      rcases run_handler_op hh o with ⟨-, hstep⟩ | ⟨r, s', hperform, hstep⟩
      · rw [hstep]
        exact h
      · have hquiet : (e.plain && !e.meters) = true ∧ ∀ r, Arriving client body (k r) := by
          cases e with
          | admitReq => cases he
          | _ => exact hp
        have hstill := still_of_quiet hperform hquiet.1
        rw [hstep]
        exact ⟨⟨_, rfl, hquiet.2 r⟩, hstill.body.trans h.body, hstill.tasks.trans h.tasks,
          hstill.recorded.trans h.recorded⟩

/-- **The admission** decides what the request is charged by. -/
theorem Arrived.admitted (h : Arrived client body s) {t : Thread} {provider model : String}
    {est : Int64} {cap : Option Int64} {c : String}
    (hn : s.next t = some (.admitReq c provider model est cap)) {o : Oracle}
    {r : Except MeteringError Reservation}
    (ho : o (.admitReq c provider model est cap) = some r) :
    ChargedBy client (step s (.run t o)) r := by
  obtain ⟨p, hh, hp⟩ := h.handler
  obtain rfl := next_of_no_worker h.body h.tasks hn
  rw [next_handler hh] at hn
  cases p with
  | ret reply => cases hn
  | op e' k =>
      cases hn
      obtain ⟨-, hok, hquota, hbackend⟩ := hp
      rcases run_handler_op hh o with ⟨hnone, -⟩ | ⟨r', s', hperform, hstep⟩
      · have hnone := Option.map_eq_none_iff.mp hnone
        cases ho.symm.trans hnone
      · obtain ⟨r'', hr, heq⟩ := Option.map_eq_some_iff.mp hperform
        cases heq
        cases ho.symm.trans hr
        rw [hstep]
        cases r with
        | ok rsv => exact .billing rfl (hok rsv) h.body h.tasks h.recorded
        | error err =>
            cases err with
            | quotaExceeded scope limit =>
                refine .billed ?_ h.body h.tasks
                rintro p ⟨⟩
                exact hquota scope limit
            | backendUnavailable msg =>
                exact .billing rfl (hbackend msg) h.body h.tasks h.recorded

theorem Arrived.other (h : Arrived client body s) {ev : RunEvent} (hev : ∀ t o, ev ≠ .run t o) :
    Arrived client body (step s ev) ∨ Standing (Records client) (step s ev) false := by
  obtain ⟨p, hh, hp⟩ := h.handler
  have hgone : Standing (Records client) { s with handler := none } false :=
    .billed (billed_of_gone rfl) h.body h.tasks
  cases ev with
  | run t o => exact absurd rfl (hev t o)
  | returned =>
      simp only [step, hh]
      cases p with
      | op e k => exact .inl h
      | ret reply =>
          obtain ⟨status, out, rfl⟩ := hp
          exact .inr hgone
  | dropHandler =>
      simp only [step, hh]
      cases p with
      | ret reply => exact .inl h
      | op e k =>
          dsimp only
          split_ifs
          · exact .inr hgone
          · exact .inl h
  | dropBody =>
      rw [(dropBody_none h.body).1]
      exact .inl h

end Arrived

end FirewallLLM.Chat
