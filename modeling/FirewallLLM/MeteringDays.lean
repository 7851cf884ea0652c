import FirewallLLM.Metering
import FirewallLLM.QuotaLedger
import FirewallLLM.Runs

/-! # Reservations across days

Runs of `Metering::admit` and `Metering::settle` by any number of clients.  The buckets of a
reservation are named after the day of `admit`; `settle` names them again after the day on
which it runs.  The times of the calls are arbitrary: nothing below needs a monotone clock,
so a call may also read its day before the store operations of others and act after them.
On Redis the record of a reservation may expire at any point of the run, and a settle that comes
later finds nothing to settle.

`inPlace_iff_sameDay`: a run whose sums the store counts exactly keeps every settle in the buckets
of its admission, and every bucket at the sum of what was admitted on its day, exactly when each
first settle comes on the day of its admission and before its record expires, or has nothing to
move. -/

namespace FirewallLLM.Quota

open Ledger (Hold charged)
open Wrapping

/-! ### Keys of a reservation -/

/-- The limits of a metering. -/
def Metering.limits (m : Metering Int64) : Limits :=
  ⟨(m.clientTokensPerDay.getD (-1)).toInt, (m.clientRequestsPerDay.getD (-1)).toInt,
    (m.providerTokensPerDay.getD (-1)).toInt⟩

theorem admitOp_legal (m : Metering Int64) {rsv : Reservation Int64}
    (h : 0 ≤ rsv.reservedTotal.toInt) (day : String) :
    (m.admitOp rsv day).exact.Legal m.limits keyFamily where
  cTokensLimit := rfl
  cReqLimit := rfl
  pTokensLimit := rfl
  cTokens := keyFamily_cTokensKey ..
  cReq := keyFamily_cReqKey ..
  pTokens := keyFamily_pTokensKey ..
  pReq := keyFamily_pReqKey ..
  mTokens := keyFamily_mTokensKey ..
  reserve := h

theorem rsvKey_inj {id₁ id₂ : String} : rsvKey id₁ = rsvKey id₂ ↔ id₁ = id₂ := by
  constructor
  · intro h
    have e := congrArg String.toList h
    simp only [rsvKey, String.toList_append] at e
    exact String.toList_inj.mp (List.append_cancel_left e)
  · rintro rfl
    rfl

section keys
variable {α : Type} {rsv : Reservation α} {day d name : String} (hday : ':' ∉ day.toList)
  (hd : ':' ∉ d.toList)
include hday hd

/-- A client bucket is one of the buckets of a reservation when client and day agree. -/
theorem cTokensKey_mem_tokenKeys :
    cTokensKey name d ∈ Metering.tokenKeys rsv day ↔ day = d ∧ rsv.client = name := by
  have h1 : cTokensKey name d ≠ pTokensKey rsv.provider day := fun e => by
    have := keyFamily_cTokensKey name d; rw [e, keyFamily_pTokensKey] at this; cases this
  have h2 : cTokensKey name d ≠ mTokensKey rsv.model day := fun e => by
    have := keyFamily_cTokensKey name d; rw [e, keyFamily_mTokensKey] at this; cases this
  simp only [Metering.tokenKeys, List.mem_cons, List.not_mem_nil, or_false, h1, h2]
  constructor
  · intro e
    obtain ⟨rfl, rfl⟩ := bucketKey_inj hd hday e
    exact ⟨rfl, rfl⟩
  · rintro ⟨rfl, rfl⟩
    rfl

theorem pTokensKey_mem_tokenKeys :
    pTokensKey name d ∈ Metering.tokenKeys rsv day ↔ day = d ∧ rsv.provider = name := by
  have h1 : pTokensKey name d ≠ cTokensKey rsv.client day := fun e => by
    have := keyFamily_pTokensKey name d; rw [e, keyFamily_cTokensKey] at this; cases this
  have h2 : pTokensKey name d ≠ mTokensKey rsv.model day := fun e => by
    have := keyFamily_pTokensKey name d; rw [e, keyFamily_mTokensKey] at this; cases this
  simp only [Metering.tokenKeys, List.mem_cons, List.not_mem_nil, or_false, false_or, h1, h2]
  constructor
  · intro e
    obtain ⟨rfl, rfl⟩ := bucketKey_inj hd hday e
    exact ⟨rfl, rfl⟩
  · rintro ⟨rfl, rfl⟩
    rfl

theorem mTokensKey_mem_tokenKeys :
    mTokensKey name d ∈ Metering.tokenKeys rsv day ↔ day = d ∧ rsv.model = name := by
  have h1 : mTokensKey name d ≠ cTokensKey rsv.client day := fun e => by
    have := keyFamily_mTokensKey name d; rw [e, keyFamily_cTokensKey] at this; cases this
  have h2 : mTokensKey name d ≠ pTokensKey rsv.provider day := fun e => by
    have := keyFamily_mTokensKey name d; rw [e, keyFamily_pTokensKey] at this; cases this
  simp only [Metering.tokenKeys, List.mem_cons, List.not_mem_nil, or_false, false_or, h1, h2]
  constructor
  · intro e
    obtain ⟨rfl, rfl⟩ := bucketKey_inj hd hday e
    exact ⟨rfl, rfl⟩
  · rintro ⟨rfl, rfl⟩
    rfl

end keys

/-! ### Runs of admissions and settles -/

/-- An admitted request: its reservation, the day of its admission, whether its record expired
before it was settled and, once it is settled, the tokens it used. -/
structure Admission where
  rsv : Reservation Int64
  day : String
  expired : Bool
  usage : Option ℤ
deriving DecidableEq, Repr

/-- What an admission reserves. -/
def Admission.reserve (a : Admission) : ℤ := a.rsv.reservedTotal.toInt

/-- The reserve of an unsettled admission, the actual usage of a settled one. -/
def Admission.charge (a : Admission) : ℤ := a.usage.getD a.reserve

/-- The hold that an admission places in the buckets of its day.  It is closed with its reserve
when its record expires. -/
def Admission.hold (a : Admission) : Hold String String :=
  { id := rsvKey a.rsv.id, keys := Metering.tokenKeys a.rsv a.day
    held := a.reserve, final := if a.expired then some a.reserve else a.usage }

/-- What the admissions of one day charge to `name`. -/
def chargedOn (book : List Admission) (who : Reservation Int64 → String) (name day : String) : ℤ :=
  ((book.filter (fun a => a.day = day ∧ who a.rsv = name)).map Admission.charge).sum

/-- Record the usage of the first settle of a reservation. -/
def settleBook (id : String) (usage : ℤ) (book : List Admission) : List Admission :=
  book.map (fun a => if a.rsv.id = id ∧ a.usage = none then { a with usage := some usage } else a)

/-- Record that a reservation expired before it was settled. -/
def expireBook (id : String) (book : List Admission) : List Admission :=
  book.map (fun a => if a.rsv.id = id ∧ a.usage = none then { a with expired := true } else a)

/-- One call of the gateway into its metering, or the expiry of the record of a reservation. -/
inductive MeteringCall where
  | admitReq (now : ℤ) (id client provider model : String) (promptEst : Int64)
      (cap : Option Int64)
  | settle (now : ℤ) (rsv : Reservation Int64) (prompt completion : Int64)
  | lapse (rsv : Reservation Int64)
deriving DecidableEq, Repr

section runs
variable (S : LawfulStore) (m : Metering Int64)

/-- A store together with the admissions made so far. -/
structure Days where
  store : S.State
  book : List Admission

/-- The effect of one call. -/
def Days.step (x : Days S) : MeteringCall → Days S
  | .admitReq now id client provider model promptEst cap =>
      match m.admitReq S.reserve now id client provider model promptEst cap x.store with
      | (.ok rsv, store) => ⟨store, x.book ++ [⟨rsv, dayString now, false, none⟩]⟩
      | (.error _, store) => ⟨store, x.book⟩
  | .settle now rsv prompt completion =>
      ⟨Metering.settle S.settle now rsv prompt completion x.store,
        settleBook rsv.id (prompt.toInt + completion.toInt) x.book⟩
  | .lapse rsv => match S.lapse (rsvKey rsv.id) x.store with
      | some store => ⟨store, expireBook rsv.id x.book⟩
      | none => x

/-- The amounts and the sums of an admission that its store carries out are counted exactly. -/
def Days.AdmitsExactly (x : Days S) (rsv : Reservation Int64) (op : AdmitOp Int64) : Prop :=
  (S.reserve op x.store).1 = .ok () →
    rsv.promptEst.toInt + rsv.completionCap.toInt < 2 ^ 63 ∧
      op.exact.Below S.bound (S.counter x.store)

/-- The sums of the first settle of a reservation are counted exactly. -/
def Days.SettlesExactly (x : Days S) (rsv : Reservation Int64) (req : SettleReq Int64) : Prop :=
  ∀ a ∈ x.book, a.rsv = rsv → a.usage = none → a.expired = false →
    req.exact.Below S.bound (S.counter x.store)

instance (x : Days S) (rsv : Reservation Int64) (op : AdmitOp Int64) :
    Decidable (x.AdmitsExactly S rsv op) :=
  match h : (S.reserve op x.store).1 with
  | .ok () => decidable_of_iff
      (rsv.promptEst.toInt + rsv.completionCap.toInt < 2 ^ 63 ∧
        op.exact.Below S.bound (S.counter x.store)) ⟨fun hr _ => hr, fun hr => hr h⟩
  | .error _ => isTrue fun hok => by rw [h] at hok; cases hok

instance (x : Days S) (rsv : Reservation Int64) (req : SettleReq Int64) :
    Decidable (x.SettlesExactly S rsv req) :=
  inferInstanceAs (Decidable (∀ a ∈ x.book, a.rsv = rsv → a.usage = none → a.expired = false →
    req.exact.Below S.bound (S.counter x.store)))

/-- Calls as the gateway makes them, within the range in which the store counts: a reservation id
is drawn afresh, and a settle passes an admitted reservation and the token counts of a usage
report. -/
def Days.Legal (x : Days S) : MeteringCall → Prop
  | .admitReq now id client provider model promptEst cap =>
      (∀ a ∈ x.book, a.rsv.id ≠ id) ∧
        let rsv := m.newReservation id client provider model promptEst cap
        x.AdmitsExactly S rsv (m.admitOp rsv (dayString now))
  | .settle now rsv prompt completion => (∃ a ∈ x.book, a.rsv = rsv) ∧
      (0 ≤ prompt.toInt ∧ 0 ≤ completion.toInt ∧ prompt.toInt + completion.toInt < 2 ^ 63) ∧
      x.SettlesExactly S rsv (Metering.settleReq rsv prompt completion (dayString now))
  | .lapse rsv => ∃ a ∈ x.book, a.rsv = rsv

instance (x : Days S) : DecidablePred (x.Legal S m)
  | .admitReq now id client provider model promptEst cap => inferInstanceAs (Decidable
      ((∀ a ∈ x.book, a.rsv.id ≠ id) ∧
        x.AdmitsExactly S (m.newReservation id client provider model promptEst cap)
          (m.admitOp (m.newReservation id client provider model promptEst cap) (dayString now))))
  | .settle now rsv prompt completion => inferInstanceAs (Decidable
      ((∃ a ∈ x.book, a.rsv = rsv) ∧
        (0 ≤ prompt.toInt ∧ 0 ≤ completion.toInt ∧ prompt.toInt + completion.toInt < 2 ^ 63) ∧
        x.SettlesExactly S rsv (Metering.settleReq rsv prompt completion (dayString now))))
  | .lapse rsv => inferInstanceAs (Decidable (∃ a ∈ x.book, a.rsv = rsv))

/-- Every bucket of every day is the sum over the admissions of that day. -/
def Days.Balance (x : Days S) : Prop :=
  ∀ (t : ℤ) (name : String),
    S.counter x.store (cTokensKey name (dayString t)) =
        chargedOn x.book Reservation.client name (dayString t) ∧
      S.counter x.store (pTokensKey name (dayString t)) =
        chargedOn x.book Reservation.provider name (dayString t) ∧
      S.counter x.store (mTokensKey name (dayString t)) =
        chargedOn x.book Reservation.model name (dayString t)

/-- The settle of `a` changes only the three buckets `a` was placed in, and lowers no bucket
of another day. -/
structure Admission.InPlace (a : Admission) (x y : Days S) : Prop where
  frame : ∀ k ∉ Metering.tokenKeys a.rsv a.day, S.counter y.store k = S.counter x.store k
  otherDays : ∀ (t : ℤ) (name : String), dayString t ≠ a.day →
    ∀ key ∈ [cTokensKey, pTokensKey, mTokensKey],
      S.counter x.store (key name (dayString t)) ≤ S.counter y.store (key name (dayString t))

/-- A call leaves all buckets balanced, and a settle stays in the buckets of its admission. -/
def Days.InPlace (x : Days S) (c : MeteringCall) : Prop :=
  (x.step S m c).Balance S ∧
    match c with
    | .settle _ rsv _ _ => ∀ a ∈ x.book, a.rsv = rsv → a.InPlace S x (x.step S m c)
    | _ => True

/-- A first settle runs on the day of its admission and before its record has expired, unless
usage and reserve agree. -/
def Days.SameDay (x : Days S) : MeteringCall → Prop
  | .settle now rsv prompt completion => ∀ a ∈ x.book, a.rsv = rsv → a.usage = none →
      (a.expired = false ∧ dayString now = a.day) ∨ prompt.toInt + completion.toInt = a.reserve
  | _ => True

instance (x : Days S) : DecidablePred (x.SameDay S)
  | .settle now rsv prompt completion =>
      inferInstanceAs (Decidable (∀ a ∈ x.book, a.rsv = rsv → a.usage = none →
        (a.expired = false ∧ dayString now = a.day) ∨
          prompt.toInt + completion.toInt = a.reserve))
  | .admitReq .. => isTrue trivial
  | .lapse _ => isTrue trivial

end runs

/-! ### The invariant of the runs -/

section invariant
variable {S : LawfulStore} {m : Metering Int64}

/-- The holds of the admissions balance the store, and charge what the admissions do; their days
are days of the clock. -/
structure Days.Inv (x : Days S) : Prop where
  balanced : Balanced S keyFamily x.store (x.book.map Admission.hold)
  day : ∀ a ∈ x.book, ∃ t, a.day = dayString t
  reserve : ∀ a ∈ x.book, 0 ≤ a.reserve
  expired : ∀ a ∈ x.book, a.expired = true → a.charge = a.reserve

theorem Days.Inv.empty : Days.Inv (S := S) ⟨S.empty, []⟩ :=
  ⟨Balanced.empty, by simp, by simp, by simp⟩

theorem Days.Inv.colon {x : Days S} (hx : x.Inv) : ∀ a ∈ x.book, ':' ∉ a.day.toList := by
  intro a ha
  obtain ⟨t, ht⟩ := hx.day a ha
  rw [ht]
  exact colon_not_mem_dayString t

theorem Days.Inv.charge {x : Days S} (hx : x.Inv) : ∀ a ∈ x.book, a.hold.charge = a.charge := by
  intro a ha
  cases hexp : a.expired with
  | false => simp [Hold.charge, Admission.hold, Admission.charge, hexp]
  | true =>
      rw [hx.expired a ha hexp]
      simp [Hold.charge, Admission.hold, hexp]

theorem charged_hold {book : List Admission} (who : Reservation Int64 → String)
    {key name day : String} (hcharge : ∀ a ∈ book, a.hold.charge = a.charge)
    (hkey : ∀ a ∈ book, key ∈ Metering.tokenKeys a.rsv a.day ↔ a.day = day ∧ who a.rsv = name) :
    charged (book.map Admission.hold) key = chargedOn book who name day := by
  induction book with
  | nil => rfl
  | cons a book ih =>
      have ha := hkey a List.mem_cons_self
      have ih' := ih (fun b hb => hcharge b (List.mem_cons_of_mem _ hb))
        (fun b hb => hkey b (List.mem_cons_of_mem _ hb))
      rw [List.map_cons, Ledger.charged_cons, ih']
      unfold chargedOn
      by_cases hk : key ∈ Metering.tokenKeys a.rsv a.day
      · rw [Ledger.chargeAt_of_mem (h := a.hold) hk, List.filter_cons_of_pos (by simpa using ha.mp hk),
          List.map_cons, List.sum_cons, hcharge a List.mem_cons_self]
      · rw [Ledger.chargeAt_of_not_mem (h := a.hold) hk,
          List.filter_cons_of_neg (by simpa using fun h1 h2 => hk (ha.mpr ⟨h1, h2⟩)), zero_add]

theorem Days.Inv.balance {x : Days S} (hx : x.Inv) : x.Balance S := by
  intro t name
  have hd := colon_not_mem_dayString t
  refine ⟨?_, ?_, ?_⟩
  · rw [hx.balanced.counters _ (by rw [keyFamily_cTokensKey]; rfl)]
    exact charged_hold _ hx.charge (fun a ha => cTokensKey_mem_tokenKeys (hx.colon a ha) hd)
  · rw [hx.balanced.counters _ (by rw [keyFamily_pTokensKey]; rfl)]
    exact charged_hold _ hx.charge (fun a ha => pTokensKey_mem_tokenKeys (hx.colon a ha) hd)
  · rw [hx.balanced.counters _ (by rw [keyFamily_mTokensKey]; rfl)]
    exact charged_hold _ hx.charge (fun a ha => mTokensKey_mem_tokenKeys (hx.colon a ha) hd)

theorem Days.Inv.ids_nodup {x : Days S} (hx : x.Inv) : (x.book.map (fun a => a.rsv.id)).Nodup := by
  have hnd := hx.balanced.nodup
  rw [Ledger.ids, List.map_map] at hnd
  refine List.Nodup.of_map rsvKey ?_
  rw [List.map_map]
  exact hnd

theorem Days.Inv.eq_of_id_eq {x : Days S} (hx : x.Inv) {a b : Admission} (ha : a ∈ x.book)
    (hb : b ∈ x.book) (h : a.rsv.id = b.rsv.id) : a = b :=
  List.inj_on_of_nodup_map hx.ids_nodup ha hb h

/-- The hold of an admission is open until it is settled or expires. -/
theorem hold_final {a : Admission} (hu : a.usage = none) (he : a.expired = false) :
    a.hold.final = none := by simp [Admission.hold, hu, he]

/-! ### What a settle does to the book -/

theorem settleBook_of_closed {x : Days S} (hx : x.Inv) {a : Admission} (ha : a ∈ x.book)
    (hu : a.usage ≠ none) (usage : ℤ) : settleBook a.rsv.id usage x.book = x.book := by
  unfold settleBook
  conv_rhs => rw [← List.map_id x.book]
  apply List.map_congr_left
  intro b hb
  rw [if_neg, id]
  rintro ⟨hid, hb'⟩
  rw [hx.eq_of_id_eq hb ha hid] at hb'
  exact hu hb'

theorem map_hold_settleBook {x : Days S} (hx : x.Inv) {a : Admission} (ha : a ∈ x.book)
    (hu : a.usage = none) (he : a.expired = false) (usage : ℤ) :
    (settleBook a.rsv.id usage x.book).map Admission.hold =
      Ledger.close a.hold.id usage (x.book.map Admission.hold) := by
  unfold settleBook Ledger.close
  rw [List.map_map, List.map_map]
  apply List.map_congr_left
  intro b hb
  by_cases hid : b.rsv.id = a.rsv.id
  · have e := hx.eq_of_id_eq hb ha hid
    subst e
    simp [Admission.hold, Admission.reserve, hu, he]
  · simp [Admission.hold, hid, rsvKey_inj]

theorem map_hold_settleBook_of_expired {x : Days S} (hx : x.Inv) {a : Admission} (ha : a ∈ x.book)
    (he : a.expired = true) (usage : ℤ) :
    (settleBook a.rsv.id usage x.book).map Admission.hold = x.book.map Admission.hold := by
  unfold settleBook
  rw [List.map_map]
  apply List.map_congr_left
  intro b hb
  by_cases hid : b.rsv.id = a.rsv.id ∧ b.usage = none
  · have e := hx.eq_of_id_eq hb ha hid.1
    subst e
    simp [Admission.hold, Admission.reserve, hid.2, he]
  · simp [hid]

theorem map_hold_expireBook {x : Days S} (hx : x.Inv) {a : Admission} (ha : a ∈ x.book) :
    (expireBook a.rsv.id x.book).map Admission.hold =
      if a.hold.final = none then Ledger.close a.hold.id a.reserve (x.book.map Admission.hold)
      else x.book.map Admission.hold := by
  have hother : ∀ b ∈ x.book, b.rsv.id ≠ a.rsv.id → b.hold.id ≠ a.hold.id :=
    fun b _ hne heq => hne (rsvKey_inj.mp heq)
  unfold expireBook Ledger.close
  split_ifs with hopen <;> rw [List.map_map]
  · rw [List.map_map]
    apply List.map_congr_left
    intro b hb
    by_cases hid : b.rsv.id = a.rsv.id
    · have e := hx.eq_of_id_eq hb ha hid
      subst e
      have hu : b.usage = none := by
        simp only [Admission.hold] at hopen
        split_ifs at hopen
        exact hopen
      simp [Admission.hold, Admission.reserve, hu]
    · simp [hother b hb hid, hid]
  · apply List.map_congr_left
    intro b hb
    by_cases hid : b.rsv.id = a.rsv.id ∧ b.usage = none
    · have e := hx.eq_of_id_eq hb ha hid.1
      subst e
      have he : b.expired = true := by
        cases hexp : b.expired with
        | false => exact absurd (hold_final hid.2 hexp) hopen
        | true => rfl
      simp [Admission.hold, Admission.reserve, hid.2, he]
    · simp [hid]

theorem mem_settleBook {id : String} {usage : ℤ} {book : List Admission} {a : Admission}
    (h : a ∈ settleBook id usage book) :
    ∃ b ∈ book, a.rsv = b.rsv ∧ a.day = b.day ∧ a.expired = b.expired ∧
      (a.usage = b.usage ∨ (b.rsv.id = id ∧ a.usage = some usage)) := by
  obtain ⟨b, hb, rfl⟩ := List.mem_map.mp h
  refine ⟨b, hb, ?_⟩
  split_ifs with hid
  · exact ⟨rfl, rfl, rfl, .inr ⟨hid.1, rfl⟩⟩
  · exact ⟨rfl, rfl, rfl, .inl rfl⟩

theorem mem_expireBook {id : String} {book : List Admission} {a : Admission}
    (h : a ∈ expireBook id book) :
    ∃ b ∈ book, a.rsv = b.rsv ∧ a.day = b.day ∧ a.usage = b.usage ∧
      (a.expired = b.expired ∨ a.usage = none) := by
  obtain ⟨b, hb, rfl⟩ := List.mem_map.mp h
  refine ⟨b, hb, ?_⟩
  split_ifs with hid
  · exact ⟨rfl, rfl, rfl, .inr hid.2⟩
  · exact ⟨rfl, rfl, rfl, .inl rfl⟩

/-- The settle of an admission moves its own charge. -/
theorem chargedOn_settleBook {book : List Admission} (hnd : (book.map (fun a => a.rsv.id)).Nodup)
    {a : Admission} (ha : a ∈ book) (hu : a.usage = none) (who : Reservation Int64 → String)
    (usage : ℤ) :
    chargedOn (settleBook a.rsv.id usage book) who (who a.rsv) a.day =
      chargedOn book who (who a.rsv) a.day + (usage - a.reserve) := by
  induction book with
  | nil => cases ha
  | cons b book ih =>
      obtain ⟨hb, hnd'⟩ := List.nodup_cons.mp hnd
      have hcons : ∀ (c : Admission) (rest : List Admission),
          chargedOn (c :: rest) who (who a.rsv) a.day =
            (if c.day = a.day ∧ who c.rsv = who a.rsv then c.charge else 0) +
              chargedOn rest who (who a.rsv) a.day := by
        intro c rest
        by_cases hc : c.day = a.day ∧ who c.rsv = who a.rsv <;> simp [chargedOn, hc]
      rcases List.mem_cons.mp ha with rfl | ha'
      · have hrest : settleBook a.rsv.id usage book = book := by
          unfold settleBook
          conv_rhs => rw [← List.map_id book]
          refine List.map_congr_left fun c hc => if_neg fun h => hb ?_
          exact List.mem_map.mpr ⟨c, hc, h.1⟩
        have hhead : settleBook a.rsv.id usage (a :: book) =
            { a with usage := some usage } :: book := by
          conv_rhs => rw [← hrest]
          simp [settleBook, hu]
        rw [hhead, hcons, hcons]
        simp only [and_self, if_true, Admission.charge, hu, Option.getD_some, Option.getD_none]
        omega
      · have hne : b.rsv.id ≠ a.rsv.id := fun e => hb (List.mem_map.mpr ⟨a, ha', e.symm⟩)
        have hhead : settleBook a.rsv.id usage (b :: book) =
            b :: settleBook a.rsv.id usage book := by
          simp [settleBook, hne]
        rw [hhead, hcons, hcons, ih hnd' ha']
        omega

/-! ### One call -/

theorem Days.Inv.admitReq {x : Days S} (hx : x.Inv) {now : ℤ} {id client provider model : String}
    {promptEst : Int64} {cap : Option Int64}
    (hl : x.Legal S m (.admitReq now id client provider model promptEst cap)) :
    (x.step S m (.admitReq now id client provider model promptEst cap)).Inv := by
  obtain ⟨hfresh, hexactly⟩ := hl
  set rsv := m.newReservation id client provider model promptEst cap with hrsv
  have hnn := newReservation_nonneg m id client provider model promptEst cap
  rw [← hrsv] at hnn
  have hnew : (m.admitOp rsv (dayString now)).reservationKey ∉
      Ledger.ids (x.book.map Admission.hold) := by
    simp only [Ledger.ids, List.map_map, List.mem_map, not_exists, not_and]
    intro a ha e
    exact hfresh a ha (rsvKey_inj.mp e)
  unfold Days.step Metering.admitReq
  rcases hres : S.reserve (m.admitOp rsv (dayString now)) x.store with ⟨_ | ⟨⟩, store'⟩
  · rename_i e
    have hs := S.reserve_error hres
    cases e <;> simp only [← hrsv, hres, Metering.admitResult, hs] <;>
      exact ⟨hx.balanced, hx.day, hx.reserve, hx.expired⟩
  · simp only [← hrsv, hres, Metering.admitResult]
    obtain ⟨htotal, hsums⟩ := hexactly (by rw [hres])
    have hreserve : 0 ≤ rsv.reservedTotal.toInt := by
      rw [show rsv.reservedTotal.toInt = rsv.promptEst.toInt + rsv.completionCap.toInt from
        toInt_add_of_lt hnn.1 hnn.2 htotal]
      exact Int.add_nonneg hnn.1 hnn.2
    have hmem : ∀ a ∈ x.book ++ [⟨rsv, dayString now, false, none⟩],
        a ∈ x.book ∨ a = ⟨rsv, dayString now, false, none⟩ := fun a ha => by simpa using ha
    refine ⟨?_, fun a ha => ?_, fun a ha => ?_, fun a ha => ?_⟩
    · rw [List.map_append]
      exact hx.balanced.admitReq (admitOp_legal m hreserve (dayString now)) hnew hsums hres
    · rcases hmem a ha with ha | rfl
      · exact hx.day a ha
      · exact ⟨now, rfl⟩
    · rcases hmem a ha with ha | rfl
      · exact hx.reserve a ha
      · exact hreserve
    · rcases hmem a ha with ha | rfl
      · exact hx.expired a ha
      · exact fun _ => rfl

theorem Days.Inv.settle_delta {x : Days S} (hx : x.Inv) {a : Admission} (ha : a ∈ x.book)
    {prompt completion : Int64} (hp : 0 ≤ prompt.toInt) (hc : 0 ≤ completion.toInt)
    (hlt : prompt.toInt + completion.toInt < 2 ^ 63) (day : String) :
    (Metering.settleReq a.rsv prompt completion day).delta.toInt =
      prompt.toInt + completion.toInt - a.reserve := by
  have hsum := toInt_add_of_lt hp hc hlt
  show (prompt + completion - a.rsv.reservedTotal).toInt = _
  rw [toInt_sub_of_nonneg (by omega) (hx.reserve a ha), hsum]
  rfl

/-- The counters after the first settle of an admission. -/
theorem Days.Inv.settle_counter {x : Days S} (hx : x.Inv) {a : Admission} (ha : a ∈ x.book)
    (hu : a.usage = none) (he : a.expired = false) {now : ℤ} {prompt completion : Int64}
    (hl : x.Legal S m (.settle now a.rsv prompt completion)) (k : String) :
    S.counter (Metering.settle S.settle now a.rsv prompt completion x.store) k =
      if k ∈ Metering.tokenKeys a.rsv (dayString now) then
        max (S.counter x.store k + (prompt.toInt + completion.toInt - a.reserve)) 0
      else S.counter x.store k := by
  obtain ⟨-, ⟨hp, hc, hlt⟩, hsums⟩ := hl
  have hopen : S.isOpen x.store (rsvKey a.rsv.id) :=
    hx.balanced.opened a.hold (List.mem_map_of_mem ha) (hold_final hu he)
  have hcount : S.counter (Metering.settle S.settle now a.rsv prompt completion x.store) =
      settleCounters _ (Metering.tokenKeys a.rsv (dayString now)) (S.counter x.store) :=
    S.settle_open hopen rfl (tokenKeys_nodup a.rsv (dayString now)) hx.balanced.solvent
      (hsums a ha rfl hu he)
  rw [hcount, settleCounters_apply _ (tokenKeys_nodup a.rsv (dayString now)),
    hx.settle_delta ha hp hc hlt]

theorem Days.Inv.settle_closed {x : Days S} (hx : x.Inv) {a : Admission} (ha : a ∈ x.book)
    (hf : a.hold.final ≠ none) (now : ℤ) (prompt completion : Int64) :
    Metering.settle S.settle now a.rsv prompt completion x.store = x.store := by
  have h : S.settle (Metering.settleReq a.rsv prompt completion (dayString now)) x.store =
      (false, x.store) := hx.balanced.resettle (List.mem_map_of_mem ha) hf rfl
  unfold Metering.settle
  rw [h]

theorem Days.Inv.settled {x : Days S} (hx : x.Inv) {a : Admission} (ha : a ∈ x.book)
    {store : S.State} {usage : ℤ}
    (hb : Balanced S keyFamily store ((settleBook a.rsv.id usage x.book).map Admission.hold))
    (hexp : a.expired = true → usage = a.reserve) :
    Days.Inv (S := S) ⟨store, settleBook a.rsv.id usage x.book⟩ := by
  refine ⟨hb, fun b hb' => ?_, fun b hb' => ?_, fun b hb' hbexp => ?_⟩ <;>
    obtain ⟨c, hc, hrsv, hday, hexpired, husage⟩ := mem_settleBook hb'
  · rw [hday]
    exact hx.day c hc
  · rw [Admission.reserve, hrsv]
    exact hx.reserve c hc
  · rw [hexpired] at hbexp
    have hreserve : b.reserve = c.reserve := by rw [Admission.reserve, hrsv]; rfl
    rcases husage with husage | ⟨hid, husage⟩
    · have := hx.expired c hc hbexp
      rw [Admission.charge, husage, hreserve]
      exact this
    · have e := hx.eq_of_id_eq hc ha hid
      subst e
      rw [Admission.charge, husage, hreserve]
      exact hexp hbexp

/-- A first settle on the day of the admission keeps the buckets balanced. -/
theorem Days.Inv.settle_sameDay {x : Days S} (hx : x.Inv) {a : Admission} (ha : a ∈ x.book)
    (hu : a.usage = none) (he : a.expired = false) {now : ℤ} {prompt completion : Int64}
    (hl : x.Legal S m (.settle now a.rsv prompt completion)) (hday : dayString now = a.day) :
    (x.step S m (.settle now a.rsv prompt completion)).Inv := by
  obtain ⟨-, ⟨hp, hc, hlt⟩, hsums⟩ := hl
  set req := Metering.settleReq a.rsv prompt completion (dayString now) with hreq
  have hdelta : req.delta.toInt = prompt.toInt + completion.toInt - a.reserve :=
    hx.settle_delta ha hp hc hlt _
  have hkeys : req.tokenKeys = a.hold.keys := by rw [hreq, hday]; rfl
  have hheld : a.hold.held = a.reserve := rfl
  have hsum : a.hold.held + req.delta.toInt = prompt.toInt + completion.toInt := by omega
  have hb := hx.balanced.settle (List.mem_map_of_mem ha) (hold_final hu he) rfl hkeys (by omega)
    (hsums a ha rfl hu he)
  rw [hsum, ← map_hold_settleBook hx ha hu he] at hb
  exact hx.settled ha hb (fun hexp => by rw [he] at hexp; cases hexp)

/-- A first settle with nothing to move keeps the buckets balanced on any day. -/
theorem Days.Inv.settle_exact {x : Days S} (hx : x.Inv) {a : Admission} (ha : a ∈ x.book)
    (hu : a.usage = none) {now : ℤ} {prompt completion : Int64}
    (hl : x.Legal S m (.settle now a.rsv prompt completion))
    (hexact : prompt.toInt + completion.toInt = a.reserve) :
    (∀ k, S.counter (Metering.settle S.settle now a.rsv prompt completion x.store) k =
      S.counter x.store k) ∧ (x.step S m (.settle now a.rsv prompt completion)).Inv := by
  cases he : a.expired with
  | true =>
      have hclosed := hx.settle_closed ha (by simp [Admission.hold, he]) now prompt completion
      refine ⟨fun k => by rw [hclosed], ?_⟩
      refine hx.settled ha ?_ (fun _ => hexact)
      rw [hclosed, map_hold_settleBook_of_expired hx ha he]
      exact hx.balanced
  | false =>
      have hsame : ∀ k, S.counter (Metering.settle S.settle now a.rsv prompt completion x.store) k =
          S.counter x.store k := by
        intro k
        rw [hx.settle_counter ha hu he hl]
        have := hx.balanced.solvent k
        split_ifs <;> omega
      have hm : a.hold ∈ x.book.map Admission.hold := List.mem_map_of_mem ha
      have hcharge : a.hold.charge = a.reserve := by simp [Hold.charge, Admission.hold, hu, he]
      obtain ⟨-, ⟨hp, hc, hlt⟩, hsums⟩ := hl
      set req := Metering.settleReq a.rsv prompt completion (dayString now) with hreq
      have hcount : ∀ k, (keyFamily k).isTokens = true → S.counter (S.settle req x.store).2 k =
          charged (Ledger.close a.hold.id (prompt.toInt + completion.toInt)
            (x.book.map Admission.hold)) k := by
        intro k hk
        rw [Ledger.charged_close hx.balanced.nodup hm, hcharge, ← hx.balanced.counters k hk, hexact,
          sub_self, ite_self, add_zero]
        exact hsame k
      have hb := hx.balanced.close hm (hold_final hu he) rfl rfl
        (tokenKeys_nodup a.rsv (dayString now)) (hsums a ha rfl hu he) (by omega) hcount
      rw [← map_hold_settleBook hx ha hu he] at hb
      exact ⟨hsame, hx.settled ha hb (fun _ => hexact)⟩

/-- A record that expires moves no counter. -/
theorem Days.Inv.lapse {x : Days S} (hx : x.Inv) {a : Admission} (ha : a ∈ x.book) :
    (x.step S m (.lapse a.rsv)).Inv := by
  unfold Days.step
  dsimp only
  cases hlapse : S.lapse (rsvKey a.rsv.id) x.store with
  | none => exact hx
  | some store =>
      have hb := hx.balanced.lapse (List.mem_map_of_mem ha) hlapse
      refine ⟨by rw [map_hold_expireBook hx ha]; exact hb, fun b hb' => ?_, fun b hb' => ?_,
        fun b hb' hexp => ?_⟩ <;> obtain ⟨c, hc, hrsv, hday, husage, hexpired⟩ := mem_expireBook hb'
      · rw [hday]
        exact hx.day c hc
      · rw [Admission.reserve, hrsv]
        exact hx.reserve c hc
      · have hreserve : b.reserve = c.reserve := by rw [Admission.reserve, hrsv]; rfl
        rcases hexpired with hexpired | hnone
        · rw [Admission.charge, husage, hreserve]
          exact hx.expired c hc (by rw [← hexpired]; exact hexp)
        · rw [Admission.charge, hnone]
          rfl

theorem Days.Inv.step {x : Days S} (hx : x.Inv) {c : MeteringCall} (hl : x.Legal S m c)
    (hs : x.SameDay S c) : (x.step S m c).Inv := by
  cases c with
  | admitReq now id client provider model promptEst cap => exact hx.admitReq hl
  | lapse rsv =>
      obtain ⟨a, ha, rfl⟩ := hl
      exact hx.lapse ha
  | settle now rsv prompt completion =>
      obtain ⟨a, ha, rfl⟩ := hl.1
      by_cases hu : a.usage = none
      · rcases hs a ha rfl hu with ⟨he, hday⟩ | hexact
        · exact hx.settle_sameDay ha hu he hl hday
        · exact (hx.settle_exact ha hu hl hexact).2
      · unfold Days.step
        dsimp only
        rw [settleBook_of_closed hx ha hu,
          hx.settle_closed ha (by simp only [Admission.hold]; split_ifs <;> simp [hu])]
        exact ⟨hx.balanced, hx.day, hx.reserve, hx.expired⟩

theorem otherDay_not_mem {rsv : Reservation Int64} {day d : String} (hday : ':' ∉ day.toList)
    (hd : ':' ∉ d.toList) (hne : d ≠ day) (name : String) :
    ∀ key ∈ [cTokensKey, pTokensKey, mTokensKey], key name d ∉ Metering.tokenKeys rsv day := by
  intro key hkey hmem
  simp only [List.mem_cons, List.not_mem_nil, or_false] at hkey
  rcases hkey with rfl | rfl | rfl
  · exact hne ((cTokensKey_mem_tokenKeys hday hd).mp hmem).1.symm
  · exact hne ((pTokensKey_mem_tokenKeys hday hd).mp hmem).1.symm
  · exact hne ((mTokensKey_mem_tokenKeys hday hd).mp hmem).1.symm

theorem Admission.inPlace_of_frame {x y : Days S} (hx : x.Inv) {a : Admission} (ha : a ∈ x.book)
    (h : ∀ k ∉ Metering.tokenKeys a.rsv a.day, S.counter y.store k = S.counter x.store k) :
    a.InPlace S x y where
  frame := h
  otherDays t name hne key hkey := by
    rw [h _ (otherDay_not_mem (hx.colon a ha) (colon_not_mem_dayString t) hne name key hkey)]

theorem Days.Inv.inPlace {x : Days S} (hx : x.Inv) {c : MeteringCall} (hl : x.Legal S m c)
    (hs : x.SameDay S c) : x.InPlace S m c := by
  refine ⟨(hx.step hl hs).balance, ?_⟩
  cases c with
  | admitReq now id client provider model promptEst cap => trivial
  | lapse rsv => trivial
  | settle now rsv prompt completion =>
      rintro a ha rfl
      apply Admission.inPlace_of_frame hx ha
      intro k hk
      unfold Days.step
      dsimp only
      by_cases hu : a.usage = none
      · rcases hs a ha rfl hu with ⟨he, hday⟩ | hexact
        · rw [hx.settle_counter ha hu he hl, hday, if_neg hk]
        · exact (hx.settle_exact ha hu hl hexact).1 k
      · rw [hx.settle_closed ha (by simp only [Admission.hold]; split_ifs <;> simp [hu])]

/-- After a settle on another day, or one that comes too late, the client bucket of the admission
is balanced only when there was nothing to move. -/
theorem Days.Inv.sameDay_of_balance {x : Days S} (hx : x.Inv) {a : Admission} (ha : a ∈ x.book)
    (hu : a.usage = none) {now : ℤ} {prompt completion : Int64}
    (hl : x.Legal S m (.settle now a.rsv prompt completion))
    (hbal : (x.step S m (.settle now a.rsv prompt completion)).Balance S) :
    (a.expired = false ∧ dayString now = a.day) ∨
      prompt.toInt + completion.toInt = a.reserve := by
  by_contra hne
  obtain ⟨hday, hexact⟩ := not_or.mp hne
  obtain ⟨t, ht⟩ := hx.day a ha
  -- neither way the settle reaches the client bucket of the admission
  have hstill : S.counter (Metering.settle S.settle now a.rsv prompt completion x.store)
      (cTokensKey a.rsv.client a.day) = S.counter x.store (cTokensKey a.rsv.client a.day) := by
    cases he : a.expired with
    | true => rw [hx.settle_closed ha (by simp [Admission.hold, he])]
    | false =>
        rw [hx.settle_counter ha hu he hl, if_neg (otherDay_not_mem (colon_not_mem_dayString now)
          (hx.colon a ha) (fun e => hday ⟨he, e.symm⟩) _ _ List.mem_cons_self)]
  have hclosed := (hbal t a.rsv.client).1
  have hopen := (hx.balance t a.rsv.client).1
  unfold Days.step at hclosed
  dsimp only at hclosed
  rw [← ht] at hclosed hopen
  rw [hstill, hopen, chargedOn_settleBook hx.ids_nodup ha hu Reservation.client] at hclosed
  omega

theorem Days.Inv.inPlace_iff {x : Days S} (hx : x.Inv) {c : MeteringCall} (hl : x.Legal S m c) :
    x.InPlace S m c ↔ x.SameDay S c := by
  refine ⟨fun h => ?_, hx.inPlace hl⟩
  cases c with
  | admitReq now id client provider model promptEst cap => trivial
  | lapse rsv => trivial
  | settle now rsv prompt completion =>
      rintro a ha rfl hu
      exact hx.sameDay_of_balance ha hu hl h.1

/-- Over any lawful store: a run is in place exactly when its settles meet `SameDay`. -/
theorem inPlace_iff_sameDay (calls : List MeteringCall)
    (hl : Runs.Along (Days.step S m) (Days.Legal S m) ⟨S.empty, []⟩ calls) :
    Runs.Along (Days.step S m) (Days.InPlace S m) ⟨S.empty, []⟩ calls ↔
      Runs.Along (Days.step S m) (Days.SameDay S) ⟨S.empty, []⟩ calls :=
  Runs.Along.iff_of_invariant (I := Days.Inv) (fun _ _ hx hl => hx.inPlace_iff hl)
    (fun _ _ hx hl hs => hx.step hl hs) calls _ Days.Inv.empty hl

end invariant

/-! ### Both backends -/

/-- **Settlement stays in the bucket of its admission** in the runs, and only in those, whose
first settles come on the day of their admission and before their records expire, or have nothing
to move. -/
theorem settle_in_place_iff (m : Metering Int64) (calls : List MeteringCall) :
    (Runs.Along (Days.step InMemoryStore.lawful m) (Days.Legal InMemoryStore.lawful m)
        ⟨InMemoryStore.lawful.empty, []⟩ calls →
      (Runs.Along (Days.step InMemoryStore.lawful m) (Days.InPlace InMemoryStore.lawful m)
          ⟨InMemoryStore.lawful.empty, []⟩ calls ↔
        Runs.Along (Days.step InMemoryStore.lawful m) (Days.SameDay InMemoryStore.lawful)
          ⟨InMemoryStore.lawful.empty, []⟩ calls)) ∧
    (Runs.Along (Days.step RedisStore.lawful m) (Days.Legal RedisStore.lawful m)
        ⟨RedisStore.lawful.empty, []⟩ calls →
      (Runs.Along (Days.step RedisStore.lawful m) (Days.InPlace RedisStore.lawful m)
          ⟨RedisStore.lawful.empty, []⟩ calls ↔
        Runs.Along (Days.step RedisStore.lawful m) (Days.SameDay RedisStore.lawful)
          ⟨RedisStore.lawful.empty, []⟩ calls)) :=
  ⟨inPlace_iff_sameDay calls, inPlace_iff_sameDay calls⟩

/-- A reservation of 100 tokens of `alice`. -/
def lateReservation : Reservation Int64 := ⟨"1", "alice", "p", "m", 40, 60⟩

/-- One request that is settled on the day of its admission, in memory; on Redis, one whose record
expires before a settle with nothing to move. -/
theorem settle_in_place_one_request :
    Runs.Along (Days.step InMemoryStore.lawful noQuota64)
      (Days.InPlace InMemoryStore.lawful noQuota64) ⟨InMemoryStore.lawful.empty, []⟩
      [.admitReq 1788739180 "1" "alice" "p" "m" 40 (some 60),
        .settle 1788739190 lateReservation 4 6] ∧
    Runs.Along (Days.step RedisStore.lawful noQuota64) (Days.InPlace RedisStore.lawful noQuota64)
      ⟨RedisStore.lawful.empty, []⟩
      [.admitReq 1788739190 "1" "alice" "p" "m" 40 (some 60), .lapse lateReservation,
        .settle 1788739900 lateReservation 40 60] := by
  constructor
  · refine ((settle_in_place_iff noQuota64 _).1 ?_).mpr ?_
    · refine ⟨?_, ?_, trivial⟩ <;> decide
    · refine ⟨?_, ?_, trivial⟩ <;> decide
  · refine ((settle_in_place_iff noQuota64 _).2 ?_).mpr ?_
    · refine ⟨?_, ?_, ?_, trivial⟩ <;> decide
    · refine ⟨?_, ?_, ?_, trivial⟩ <;> decide

/-- `alice` reserves ten seconds before midnight, `bob` after it, then `alice` settles. -/
def midnightCalls : List MeteringCall :=
  [.admitReq 1788739190 "1" "alice" "p" "m" 40 (some 60),
    .admitReq 1788739210 "2" "bob" "p" "m" 20 (some 30),
    .settle 1788739220 lateReservation 4 6]

example : dayString 1788739190 = "20260906" ∧ dayString 1788739220 = "20260907" := by decide

/-- The settle after midnight erases what `bob` reserved on the new day. -/
theorem settle_across_midnight :
    ¬ ∀ calls, Runs.Along (Days.step InMemoryStore.lawful noQuota64)
        (Days.Legal InMemoryStore.lawful noQuota64) ⟨InMemoryStore.lawful.empty, []⟩ calls →
      Runs.Along (Days.step InMemoryStore.lawful noQuota64)
        (Days.InPlace InMemoryStore.lawful noQuota64) ⟨InMemoryStore.lawful.empty, []⟩ calls := by
  intro h
  have hlegal : Runs.Along (Days.step InMemoryStore.lawful noQuota64)
      (Days.Legal InMemoryStore.lawful noQuota64) ⟨InMemoryStore.lawful.empty, []⟩
      midnightCalls := by
    refine ⟨?_, ?_, ?_, trivial⟩ <;> decide
  have hrun := (h midnightCalls hlegal).2.2.1.1 1788739210 "p"
  exact absurd hrun.2.1 (by decide)

end FirewallLLM.Quota
