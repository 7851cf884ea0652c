import FirewallLLM.ProxyRotation

/-! # Cooldowns of an egress pool

`ProxyPool` clears the failure state of a proxy when `current` comes across an elapsed cooldown,
and in no other call.  The pool is compared with one that resets a proxy at the moment its
cooldown elapses (`elapse`).

`lazy_expiry_invisible`: both give the same answers as long as no failure of a member is reported
between the end of its cooldown and the next `current`, where one failure is not enough to disable
it anyway. -/

namespace FirewallLLM.Py.ProxyPool

open Routing (Builtins Ordered)
open Routing.Builtins (lt le add zero round)

variable {F : Type} [Builtins F]

/-! ### The pool that is reset in time -/

/-- The cooldown of a proxy has elapsed. -/
def hasElapsed (p : ProxyPool F) (now : F) (url : String) : Bool :=
  (p.disabledUntil url).any (fun untilTs => !lt now untilTs)

/-- Every proxy whose cooldown has elapsed is reset. -/
def elapse (p : ProxyPool F) (now : F) : ProxyPool F :=
  { p with
    failures := fun url => if p.hasElapsed now url then none else p.failures url
    disabledUntil := fun url => if p.hasElapsed now url then none else p.disabledUntil url }

/-- The proxies without a cooldown, or all of them. -/
def eagerChoices (p : ProxyPool F) : List String :=
  let kept := p.args.proxies.filter (fun url => (p.disabledUntil url).isNone)
  if kept = [] then p.args.proxies else kept

def eagerCurrent (p : ProxyPool F) (now : F) : String × ProxyPool F :=
  (pick p.args p.index (p.elapse now).eagerChoices, p.elapse now)

def eagerCall (p : ProxyPool F) : PoolCall F → ProxyPool F
  | .current now => (p.eagerCurrent now).2
  | .markRequest => p.markRequest
  | .reportFailure now url => (p.elapse now).reportFailure now url

/-- The time of a call. -/
def PoolCall.time? {F : Type} : PoolCall F → Option F
  | current now | reportFailure now _ => some now
  | markRequest => none

/-- The times do not decrease. -/
def Timely (calls : List (PoolCall F)) : Prop :=
  (calls.filterMap PoolCall.time?).Pairwise (fun s t => le s t = true)

/-- Both pools. -/
abbrev Pools (F : Type) := ProxyPool F × ProxyPool F

def both (s : Pools F) (c : PoolCall F) : Pools F := (s.1.call c, s.2.eagerCall c)

/-- The same answer, and the same cooldown for the member that failed. -/
def Alike (s : Pools F) : PoolCall F → Prop
  | .current now => (s.1.current now).1 = (s.2.eagerCurrent now).1
  | .markRequest => True
  | .reportFailure now url => url ∈ s.1.args.proxies →
      (s.1.reportFailure now url).disabledUntil url =
        ((s.2.elapse now).reportFailure now url).disabledUntil url

/-- No failure of a member is counted on from before its last cooldown. -/
def Prompt (p : ProxyPool F) : PoolCall F → Prop
  | .current now => ¬ p.EndsAtEpoch now
  | .markRequest => True
  | .reportFailure now url => url ∈ p.args.proxies → 2 ≤ p.args.failThreshold →
      p.hasElapsed now url = false

/-! ### What both have in common -/

/-- The state of a proxy is the same in both pools, or its cooldown has elapsed for all that is
to come. -/
def Matches (later : List F) (p r : ProxyPool F) (url : String) : Prop :=
  (p.disabledUntil url = r.disabledUntil url ∧
      (2 ≤ p.args.failThreshold → p.failures url = r.failures url)) ∨
    ((∃ untilTs, p.disabledUntil url = some untilTs ∧ ∀ t ∈ later, lt t untilTs = false) ∧
      r.disabledUntil url = none ∧ r.failures url = none)

/-- No failure count is negative. -/
def Counting (p : ProxyPool F) : Prop := ∀ url, ∀ n ∈ p.failures url, 0 ≤ n

structure Sim (later : List F) (p r : ProxyPool F) : Prop where
  args_eq : r.args = p.args
  window_eq : r.window = p.window
  matched : ∀ url ∈ p.args.proxies, Matches later p r url
  counting : p.Counting
  eager_counting : r.Counting

omit [Builtins F] in
theorem counting_init (args : PoolArgs) : (init args : ProxyPool F).Counting :=
  fun _ _ h => absurd h (Option.not_mem_none _)

theorem sim_init (args : PoolArgs) (later : List F) : Sim later (init args) (init args) :=
  ⟨rfl, rfl, fun _ _ => .inl ⟨rfl, fun _ => rfl⟩, counting_init args, counting_init args⟩

theorem counting_elapse {p : ProxyPool F} (h : p.Counting) (now : F) : (p.elapse now).Counting := by
  intro url n hn
  unfold elapse at hn
  dsimp only at hn
  split_ifs at hn
  · cases hn
  · exact h url n hn

theorem counting_swept {p : ProxyPool F} (h : p.Counting) (now : F) (urls : List String) :
    (p.swept now urls).Counting := by
  intro url n hn
  unfold swept at hn
  dsimp only at hn
  split_ifs at hn
  · cases hn
  · exact h url n hn

/-! ### A read -/

section Current

variable {p r : ProxyPool F} {later : List F} {now : F} {url : String}

theorem hasElapsed_none (h : p.disabledUntil url = none) : p.hasElapsed now url = false := by
  rw [hasElapsed, h]
  rfl

theorem hasElapsed_some {untilTs : F} (h : p.disabledUntil url = some untilTs) :
    p.hasElapsed now url = !lt now untilTs := by
  rw [hasElapsed, h]
  rfl

theorem coolsDown_some {untilTs : F} (h : p.disabledUntil url = some untilTs) :
    p.CoolsDown now url ↔ lt now untilTs = true := by
  simp [CoolsDown, h]

/-- A member that cools down is left alone by both, and any other is reset by both. -/
theorem Matches.read (h : Matches later p r url) (hurl : url ∈ p.args.proxies)
    (hepoch : ¬ p.EndsAtEpoch now) (hnow : now ∈ later) :
    (!p.isDisabled now url) = ((r.elapse now).disabledUntil url).isNone ∧
      ∀ rest, Matches rest (p.swept now p.args.proxies) (r.elapse now) url := by
  have hdisabled := isDisabled_iff hepoch hurl
  rcases h with ⟨huntil, hfailures⟩ | ⟨⟨untilTs, hp, hpast⟩, hr, hfr⟩
  · cases hp : p.disabledUntil url with
    | none =>
        have hr : r.disabledUntil url = none := huntil.symm.trans hp
        have hnot : p.isDisabled now url = false := by
          rw [isDisabled, hp]
          rfl
        refine ⟨by simp [hnot, elapse, hasElapsed_none hr, hr], fun rest => .inl ⟨?_, fun hthr => ?_⟩⟩
        · simp [swept, elapse, hasElapsed_none hr, hr, hnot, hurl]
        · simp [swept, elapse, hasElapsed_none hr, hp, hfailures hthr]
    | some untilTs =>
        have hr : r.disabledUntil url = some untilTs := huntil.symm.trans hp
        rw [coolsDown_some hp] at hdisabled
        cases hlate : lt now untilTs with
        | true =>
            have hd : p.isDisabled now url = true := hdisabled.mpr hlate
            refine ⟨by simp [hd, elapse, hasElapsed_some hr, hr, hlate],
              fun rest => .inl ⟨?_, fun hthr => ?_⟩⟩
            · simp [swept, elapse, hasElapsed_some hr, hr, hp, hd, hlate]
            · simp [swept, elapse, hasElapsed_some hr, hd, hlate, hfailures hthr]
        | false =>
            have hd : p.isDisabled now url = false := by
              rw [← Bool.not_eq_true, hdisabled, hlate]
              exact Bool.false_ne_true
            refine ⟨by simp [hd, elapse, hasElapsed_some hr, hlate],
              fun rest => .inl ⟨?_, fun hthr => ?_⟩⟩
            · simp [swept, elapse, hasElapsed_some hr, hd, hlate, hurl]
            · simp [swept, elapse, hasElapsed_some hr, hd, hlate, hurl, hp]
  · have hd : p.isDisabled now url = false := by
      rw [← Bool.not_eq_true, hdisabled, coolsDown_some hp, hpast now hnow]
      exact Bool.false_ne_true
    refine ⟨by simp [hd, elapse, hasElapsed_none hr, hr], fun rest => .inl ⟨?_, fun hthr => ?_⟩⟩
    · simp [swept, elapse, hasElapsed_none hr, hr, hd, hurl]
    · simp [swept, elapse, hasElapsed_none hr, hfr, hd, hurl, hp]

theorem Sim.current (h : Sim later p r) (hepoch : ¬ p.EndsAtEpoch now) (hnow : now ∈ later)
    (rest : List F) : (p.current now).1 = (r.eagerCurrent now).1 ∧
      Sim rest (p.current now).2 (r.eagerCurrent now).2 := by
  have hread := fun url hurl => (h.matched url hurl).read hurl hepoch hnow
  have hindex : r.index = p.index := congrArg Prod.fst h.window_eq
  have hkept : p.args.proxies.filter (fun url => !p.isDisabled now url) =
      p.args.proxies.filter (fun url => ((r.elapse now).disabledUntil url).isNone) :=
    List.filter_congr fun url hurl => (hread url hurl).1
  have hchoices : p.choices now = (r.elapse now).eagerChoices := by
    have hargs : (r.elapse now).args = p.args := h.args_eq
    rw [choices, eagerChoices, hargs, hkept]
  rw [current_eq, eagerCurrent, hchoices, h.args_eq, hindex]
  exact ⟨rfl, h.args_eq, h.window_eq, fun url hurl => (hread url hurl).2 rest,
    counting_swept h.counting now _, counting_elapse h.eager_counting now⟩

end Current

/-! ### A report -/

/-- The failures of a proxy with the new one. -/
def failuresAfter (p : ProxyPool F) (url : String) : ℤ := (p.failures url).getD 0 + 1

section Report

variable {p r : ProxyPool F} {later : List F} {now : F} {url : String}

theorem failures_reportFailure : (p.reportFailure now url).failures =
    Function.update p.failures url (some (p.failuresAfter url)) := by
  unfold reportFailure
  dsimp only
  split_ifs <;> rfl

theorem disabledUntil_reportFailure : (p.reportFailure now url).disabledUntil =
    if p.args.failThreshold ≤ p.failuresAfter url then
      Function.update p.disabledUntil url (some (add now (round p.args.cooldownSeconds)))
    else p.disabledUntil := by
  unfold reportFailure failuresAfter
  dsimp only
  split_ifs <;> rfl

omit [Builtins F] in
theorem failuresAfter_pos (h : p.Counting) : 1 ≤ p.failuresAfter url := by
  unfold failuresAfter
  cases hcount : p.failures url with
  | none => exact le_rfl
  | some n =>
      have hn : 0 ≤ n := h url n hcount
      simpa using hn

theorem counting_reportFailure (h : p.Counting) (now : F) (url : String) :
    (p.reportFailure now url).Counting := by
  intro other n hn
  rw [failures_reportFailure] at hn
  by_cases heq : other = url
  · subst heq
    rw [Function.update_self] at hn
    have hpos : 1 ≤ p.failuresAfter other := failuresAfter_pos h
    have hcount : p.failuresAfter other = n := Option.some.inj hn
    omega
  · rw [Function.update_of_ne heq] at hn
    exact h other n hn

/-- The other proxies are left alone by the one pool and may be reset by the other. -/
theorem Matches.elapse [Ordered F] (h : Matches (now :: later) p r url)
    (hlater : ∀ t ∈ later, le now t = true) : Matches later p (r.elapse now) url := by
  have hpast : ∀ untilTs, lt now untilTs = false → ∀ t ∈ later, lt t untilTs = false := by
    intro untilTs hlate t ht
    rw [Ordered.lt_eq, Bool.not_eq_false'] at hlate ⊢
    exact Ordered.le_trans _ _ _ hlate (hlater t ht)
  rcases h with ⟨huntil, hfailures⟩ | ⟨⟨untilTs, hp, hgone⟩, hr, hfr⟩
  · cases hp : p.disabledUntil url with
    | none =>
        have hr : r.disabledUntil url = none := huntil.symm.trans hp
        refine .inl ⟨?_, fun hthr => ?_⟩
        · simp [ProxyPool.elapse, hasElapsed_none hr, hp, hr]
        · simp [ProxyPool.elapse, hasElapsed_none hr, hfailures hthr]
    | some untilTs =>
        have hr : r.disabledUntil url = some untilTs := huntil.symm.trans hp
        cases hlate : lt now untilTs with
        | true =>
            refine .inl ⟨?_, fun hthr => ?_⟩
            · simp [ProxyPool.elapse, hasElapsed_some hr, hlate, hp, hr]
            · simp [ProxyPool.elapse, hasElapsed_some hr, hlate, hfailures hthr]
        | false =>
            refine .inr ⟨⟨untilTs, hp, hpast untilTs hlate⟩, ?_, ?_⟩
            · simp [ProxyPool.elapse, hasElapsed_some hr, hlate]
            · simp [ProxyPool.elapse, hasElapsed_some hr, hlate]
  · refine .inr ⟨⟨untilTs, hp, fun t ht => hgone t (List.mem_cons_of_mem _ ht)⟩, ?_, ?_⟩
    · simp [ProxyPool.elapse, hasElapsed_none hr, hr]
    · simp [ProxyPool.elapse, hasElapsed_none hr, hfr]

/-- Where the last cooldown has not elapsed both pools count from the same number. -/
theorem Matches.not_elapsed (h : Matches (now :: later) p r url)
    (hprompt : p.hasElapsed now url = false) :
    p.disabledUntil url = r.disabledUntil url ∧
      (2 ≤ p.args.failThreshold → p.failures url = r.failures url) := by
  rcases h with hsame | ⟨⟨untilTs, hp, hgone⟩, -, -⟩
  · exact hsame
  · rw [hasElapsed_some hp, hgone now List.mem_cons_self] at hprompt
    cases hprompt

theorem disabledUntil_report_of_le (h : p.args.failThreshold ≤ p.failuresAfter url) :
    (p.reportFailure now url).disabledUntil url =
      some (add now (round p.args.cooldownSeconds)) := by
  rw [disabledUntil_reportFailure, if_pos h, Function.update_self]

theorem Matches.report (h : Matches (now :: later) p r url) (hargs : r.args = p.args)
    (hp : p.Counting) (hr : r.Counting)
    (hprompt : 2 ≤ p.args.failThreshold → p.hasElapsed now url = false) :
    (p.reportFailure now url).disabledUntil url =
        ((r.elapse now).reportFailure now url).disabledUntil url ∧
      (2 ≤ p.args.failThreshold → (p.reportFailure now url).failures url =
        ((r.elapse now).reportFailure now url).failures url) := by
  have hargs' : (r.elapse now).args = p.args := hargs
  by_cases hthr : 2 ≤ p.args.failThreshold
  · obtain ⟨huntil, hfailures⟩ := h.not_elapsed (hprompt hthr)
    have hstill : r.hasElapsed now url = false := by
      rw [hasElapsed, ← huntil]
      exact hprompt hthr
    have huntil' : (r.elapse now).disabledUntil url = p.disabledUntil url := by
      simp [ProxyPool.elapse, hstill, huntil]
    have hfailures' : (r.elapse now).failures url = p.failures url := by
      simp [ProxyPool.elapse, hstill, hfailures hthr]
    have hafter : (r.elapse now).failuresAfter url = p.failuresAfter url := by
      rw [failuresAfter, failuresAfter, hfailures']
    rw [failures_reportFailure, failures_reportFailure, disabledUntil_reportFailure,
      disabledUntil_reportFailure, hargs', hafter]
    refine ⟨?_, fun _ => by rw [Function.update_self, Function.update_self]⟩
    split_ifs
    · rw [Function.update_self, Function.update_self]
    · exact huntil'.symm
  · have hfirst : p.args.failThreshold ≤ p.failuresAfter url := by
      have hpos : 1 ≤ p.failuresAfter url := failuresAfter_pos hp
      omega
    have hsecond : (r.elapse now).args.failThreshold ≤ (r.elapse now).failuresAfter url := by
      have hpos : 1 ≤ (r.elapse now).failuresAfter url :=
        failuresAfter_pos (counting_elapse hr now)
      rw [hargs']
      omega
    rw [disabledUntil_report_of_le hfirst, disabledUntil_report_of_le hsecond, hargs']
    exact ⟨rfl, fun h => absurd h hthr⟩

theorem report_of_ne (p : ProxyPool F) (now : F) {other : String} (h : other ≠ url) :
    (p.reportFailure now url).disabledUntil other = p.disabledUntil other ∧
      (p.reportFailure now url).failures other = p.failures other := by
  rw [failures_reportFailure, disabledUntil_reportFailure, Function.update_of_ne h]
  split_ifs
  · rw [Function.update_of_ne h]
    exact ⟨rfl, rfl⟩
  · exact ⟨rfl, rfl⟩

theorem Sim.report [Ordered F] (h : Sim (now :: later) p r)
    (hlater : ∀ t ∈ later, le now t = true) (hprompt : Prompt p (.reportFailure now url)) :
    Alike (p, r) (.reportFailure now url) ∧
      Sim later (p.reportFailure now url) ((r.elapse now).reportFailure now url) := by
  have hreport := fun hurl : url ∈ p.args.proxies =>
    (h.matched url hurl).report h.args_eq h.counting h.eager_counting (hprompt hurl)
  have hargs : ((r.elapse now).reportFailure now url).args = p.args :=
    (args_reportFailure _ now url).trans h.args_eq
  refine ⟨fun hurl => (hreport hurl).1, ?_, ?_, ?_, counting_reportFailure h.counting now url,
    counting_reportFailure (counting_elapse h.eager_counting now) now url⟩
  · rw [hargs, args_reportFailure]
  · rw [window_reportFailure, window_reportFailure]
    exact h.window_eq
  · intro other hother
    rw [args_reportFailure] at hother
    by_cases heq : other = url
    · subst heq
      obtain ⟨huntil, hfailures⟩ := hreport hother
      exact .inl ⟨huntil, by rwa [args_reportFailure]⟩
    · have hmatched := (h.matched other hother).elapse hlater
      obtain ⟨hp, hfp⟩ := p.report_of_ne now heq
      obtain ⟨hr, hfr⟩ := (r.elapse now).report_of_ne now heq
      unfold Matches
      rw [hp, hfp, hr, hfr, args_reportFailure]
      exact hmatched

end Report

/-! ### Runs -/

omit [Builtins F] in
theorem window_mark_congr {p r : ProxyPool F} (hargs : r.args = p.args)
    (hwindow : r.window = p.window) : r.markRequest.window = p.markRequest.window := by
  have hindex : r.index = p.index := congrArg Prod.fst hwindow
  have hcount : r.windowCount = p.windowCount := congrArg Prod.snd hwindow
  unfold markRequest advance window
  dsimp only
  rw [hargs, hindex, hcount]
  split_ifs <;> rfl

theorem Sim.mark {p r : ProxyPool F} {later : List F} (h : Sim later p r) :
    Sim later p.markRequest r.markRequest := by
  obtain ⟨hpargs, hpfailures, hpuntil⟩ := markRequest_tables p
  obtain ⟨hrargs, hrfailures, hruntil⟩ := markRequest_tables r
  refine ⟨?_, window_mark_congr h.args_eq h.window_eq, ?_, ?_, ?_⟩
  · rw [hpargs, hrargs, h.args_eq]
  · intro url hurl
    rw [hpargs] at hurl
    unfold Matches
    rw [hpargs, hpfailures, hpuntil, hrfailures, hruntil]
    exact h.matched url hurl
  · unfold Counting
    rw [hpfailures]
    exact h.counting
  · unfold Counting
    rw [hrfailures]
    exact h.eager_counting

/-- **Where no failure of a member comes between the end of its cooldown and the next read, the
pool answers as one that is reset in time.** -/
theorem lazy_expiry_invisible [Ordered F] (args : PoolArgs) (calls : List (PoolCall F))
    (htimes : Timely calls) (hprompt : Runs.Along call Prompt (init args) calls) :
    Runs.Along both Alike (init args, init args) calls := by
  have hrun : ∀ (calls : List (PoolCall F)) (p r : ProxyPool F), Timely calls →
      Sim (calls.filterMap PoolCall.time?) p r → Runs.Along call Prompt p calls →
      Runs.Along both Alike (p, r) calls := by
    intro calls
    induction calls with
    | nil => exact fun _ _ _ _ _ => trivial
    | cons c calls ih =>
        intro p r htimes hsim hprompt
        obtain ⟨hfirst, hrest⟩ := hprompt
        cases c with
        | current now =>
            have hlater : Timely calls := (List.pairwise_cons.mp htimes).2
            obtain ⟨halike, hnext⟩ := hsim.current hfirst List.mem_cons_self
              (calls.filterMap PoolCall.time?)
            exact ⟨halike, ih _ _ hlater hnext hrest⟩
        | markRequest => exact ⟨trivial, ih _ _ htimes hsim.mark hrest⟩
        | reportFailure now url =>
            obtain ⟨hlater, hsorted⟩ := List.pairwise_cons.mp htimes
            obtain ⟨halike, hnext⟩ := hsim.report hlater hfirst
            exact ⟨halike, ih _ _ hsorted hnext hrest⟩
  exact hrun calls _ _ htimes (sim_init args _) hprompt

/-- Two failures disable a proxy; it is read after the cooldown, and a third one does not. -/
theorem lazy_expiry_pair : Runs.Along both Alike
    (init (pairArgs "round_robin" 1 2), init (pairArgs "round_robin" 1 2))
    [.reportFailure (1000 : ℤ) "http://a:8080", .reportFailure 1000 "http://a:8080",
      .current 1300, .reportFailure 1310 "http://a:8080", .current 1311] := by
  have htimes : Timely [.reportFailure (1000 : ℤ) "http://a:8080",
      .reportFailure 1000 "http://a:8080", .current 1300, .reportFailure 1310 "http://a:8080",
      .current 1311] := by
    unfold Timely
    decide
  exact lazy_expiry_invisible (pairArgs "round_robin" 1 2) _ htimes
    ⟨fun _ _ => by decide, fun _ _ => by decide, not_endsAtEpoch (by decide),
      fun _ _ => by decide, not_endsAtEpoch (by decide), trivial⟩

/-- The first failure after a cooldown disables the proxy again, where two are needed. -/
theorem late_failure_disables : ¬ ∀ (args : PoolArgs) (calls : List (PoolCall ℤ)), Timely calls →
    Runs.Along both Alike (init args, init args) calls := by
  intro h
  have htimes : Timely [.reportFailure (1000 : ℤ) "http://a:8080",
      .reportFailure 1000 "http://a:8080", .reportFailure 1300 "http://a:8080",
      .current 1301] := by
    unfold Timely
    decide
  have halike := (h (pairArgs "round_robin" 1 2) _ htimes).2.2.2.1
  have hanswers : "http://b:8080" = "http://a:8080" := halike
  exact absurd hanswers (by decide)

end FirewallLLM.Py.ProxyPool
