import FirewallLLM.EgressPools

/-! # The rotation of an egress pool

The calls of a `ProxyPool`, in any order and at any times.  `available` is described once, by the
proxies that it keeps and by the failure states that it clears (`enabled_eq`), and the place in
the rotation by the number of requests that were marked (`Turn`).

`disabled_until` is read as a truth value, so that a cooldown that ends at the very epoch counts
as none.  `healthy_in_use`: otherwise no proxy in cooldown is handed out while a healthy one
exists. -/

namespace FirewallLLM.Py.ProxyPool

open Routing (Builtins Ordered)
open Routing.Builtins (lt add zero round)

/-- A call of the pool, with its reading of the clock. -/
inductive PoolCall (F : Type) where
  | current (now : F)
  | markRequest
  | reportFailure (now : F) (url : String)

variable {F : Type} [Builtins F]

/-- The pool after a call. -/
def call (p : ProxyPool F) : PoolCall F → ProxyPool F
  | .current now => (p.current now).2
  | .markRequest => p.markRequest
  | .reportFailure now url => p.reportFailure now url

/-! ### What is available -/

/-- The failure states of the proxies that are kept are cleared. -/
def swept (p : ProxyPool F) (now : F) (urls : List String) : ProxyPool F :=
  { p with
    failures := fun url => if url ∈ urls ∧ p.isDisabled now url = false ∧
      (p.disabledUntil url).isSome then none else p.failures url
    disabledUntil := fun url => if url ∈ urls ∧ p.isDisabled now url = false then none
      else p.disabledUntil url }

omit [Builtins F] in
theorem disabledUntil_clear (p : ProxyPool F) (url other : String) :
    (p.clear url).disabledUntil other = if other = url then none else p.disabledUntil other := by
  unfold clear
  split_ifs with hsome heq heq
  · subst heq
    simp
  · simp [Function.update_of_ne heq]
  · subst heq
    simpa using hsome
  · rfl

omit [Builtins F] in
theorem failures_clear (p : ProxyPool F) (url other : String) : (p.clear url).failures other =
    if other = url ∧ (p.disabledUntil other).isSome then none else p.failures other := by
  unfold clear
  by_cases heq : other = url
  · subst heq
    split_ifs <;> simp_all
  · split_ifs <;> simp_all

theorem isDisabled_clear {p : ProxyPool F} {now : F} {url : String}
    (h : p.isDisabled now url = false) (other : String) :
    (p.clear url).isDisabled now other = p.isDisabled now other := by
  unfold isDisabled
  rw [disabledUntil_clear]
  split_ifs with heq
  · subst heq
    exact h.symm
  · rfl

omit [Builtins F] in
theorem clear_fields (p : ProxyPool F) (url : String) :
    (p.clear url).args = p.args ∧ (p.clear url).index = p.index ∧
      (p.clear url).windowCount = p.windowCount := by
  unfold clear
  split_ifs <;> exact ⟨rfl, rfl, rfl⟩

theorem swept_clear {p : ProxyPool F} {now : F} {url : String}
    (h : p.isDisabled now url = false) (urls : List String) :
    (p.clear url).swept now urls = p.swept now (url :: urls) := by
  obtain ⟨hargs, hindex, hwindow⟩ := clear_fields p url
  unfold swept
  rw [hargs, hindex, hwindow]
  congr 1
  · funext other
    simp only [isDisabled_clear h, failures_clear, disabledUntil_clear, List.mem_cons]
    by_cases heq : other = url
    · subst heq
      simp [h]
    · simp [heq]
  · funext other
    simp only [isDisabled_clear h, disabledUntil_clear, List.mem_cons]
    by_cases heq : other = url
    · subst heq
      simp [h]
    · simp [heq]

theorem swept_disabled {p : ProxyPool F} {now : F} {url : String}
    (h : p.isDisabled now url = true) (urls : List String) :
    p.swept now urls = p.swept now (url :: urls) := by
  have hmem : ∀ other, (other ∈ url :: urls ∧ p.isDisabled now other = false) ↔
      (other ∈ urls ∧ p.isDisabled now other = false) := by
    intro other
    rw [List.mem_cons]
    constructor
    · rintro ⟨heq | hin, hnot⟩
      · subst heq
        rw [h] at hnot
        cases hnot
      · exact ⟨hin, hnot⟩
    · rintro ⟨hin, hnot⟩
      exact ⟨.inr hin, hnot⟩
  unfold swept
  simp only [← and_assoc, hmem]

/-- **The loop keeps the proxies that are not disabled, and clears their failure states.** -/
theorem enabled_eq (now : F) (urls : List String) (p : ProxyPool F) : enabled now urls p =
    (urls.filter (fun url => !p.isDisabled now url), p.swept now urls) := by
  induction urls generalizing p with
  | nil =>
      simp [enabled, swept]
  | cons url urls ih =>
      cases h : p.isDisabled now url with
      | true =>
          rw [enabled, if_pos h, ih, swept_disabled h, List.filter_cons_of_neg (by simp [h])]
      | false =>
          have hnot : ¬ p.isDisabled now url = true := by simp [h]
          rw [enabled, if_neg hnot, ih, swept_clear h, List.filter_cons_of_pos (by simp [h])]
          simp only [isDisabled_clear h]

/-- The proxies that are not disabled, or all of them. -/
def choices (p : ProxyPool F) (now : F) : List String :=
  let kept := p.args.proxies.filter (fun url => !p.isDisabled now url)
  if kept = [] then p.args.proxies else kept

theorem available_eq (p : ProxyPool F) (now : F) :
    p.available now = (p.choices now, p.swept now p.args.proxies) := by
  rw [available, enabled_eq]
  rfl

/-! ### What is handed out -/

/-- The selection among what is available. -/
def pick (args : PoolArgs) (index : ℕ) : List String → String
  | [url] => url
  | available =>
      if args.rotation = "least_used" then
        let active := args.proxies.getD (index % args.proxies.length) ""
        (available.find? (· ≠ active)).getD (available.headD "")
      else available.getD (index % available.length) ""

/-- **A call selects among the choices, and clears what it finds elapsed.** -/
theorem current_eq (p : ProxyPool F) (now : F) : p.current now =
    (pick p.args p.index (p.choices now), p.swept now p.args.proxies) := by
  rw [current, available_eq]
  generalize p.choices now = available
  rcases available with - | ⟨url, - | ⟨other, urls⟩⟩ <;> rfl

theorem choices_ne_nil (p : ProxyPool F) (now : F) : p.choices now ≠ [] := by
  unfold choices
  dsimp only
  split_ifs with h
  · exact p.args.nonempty
  · exact h

theorem pick_mem {args : PoolArgs} {index : ℕ} {available : List String} (h : available ≠ []) :
    pick args index available ∈ available := by
  have hrest : ∀ available : List String, available ≠ [] →
      (if args.rotation = "least_used" then
        (available.find? (· ≠ args.proxies.getD (index % args.proxies.length) "")).getD
          (available.headD "")
      else available.getD (index % available.length) "") ∈ available := by
    intro available hne
    obtain ⟨url, urls, rfl⟩ := List.exists_cons_of_ne_nil hne
    split_ifs
    · cases hfind : (url :: urls).find? _ with
      | none => exact List.mem_cons_self
      | some found => exact List.mem_of_find?_eq_some hfind
    · have hlt : index % (url :: urls).length < (url :: urls).length :=
        Nat.mod_lt _ (List.length_pos_of_ne_nil hne)
      rw [List.getD_eq_getElem _ _ hlt]
      exact List.getElem_mem hlt
  rcases available with - | ⟨url, - | ⟨other, urls⟩⟩
  · exact absurd rfl h
  · exact List.mem_cons_self
  · exact hrest (url :: other :: urls) h

theorem mem_of_mem_choices {p : ProxyPool F} {now : F} {url : String} (h : url ∈ p.choices now) :
    url ∈ p.args.proxies := by
  unfold choices at h
  dsimp only at h
  split_ifs at h
  · exact h
  · exact List.mem_of_mem_filter h

theorem current_mem (p : ProxyPool F) (now : F) : (p.current now).1 ∈ p.choices now := by
  rw [current_eq]
  exact pick_mem (p.choices_ne_nil now)

/-- `disabled_until` is later than now. -/
def CoolsDown (p : ProxyPool F) (now : F) (url : String) : Prop :=
  ∃ untilTs ∈ p.disabledUntil url, lt now untilTs = true

/-- A cooldown is still to end at the very epoch. -/
def EndsAtEpoch (p : ProxyPool F) (now : F) : Prop :=
  ∃ url ∈ p.args.proxies, ∃ untilTs ∈ p.disabledUntil url,
    lt now untilTs = true ∧ lt zero untilTs = false ∧ lt untilTs zero = false

theorem isDisabled_iff {p : ProxyPool F} {now : F} (h : ¬ p.EndsAtEpoch now) {url : String}
    (hurl : url ∈ p.args.proxies) : p.isDisabled now url = true ↔ p.CoolsDown now url := by
  simp only [isDisabled, Option.any_eq_true, Bool.and_eq_true, Bool.or_eq_true, CoolsDown]
  constructor
  · rintro ⟨untilTs, huntil, -, hlate⟩
    exact ⟨untilTs, huntil, hlate⟩
  · rintro ⟨untilTs, huntil, hlate⟩
    refine ⟨untilTs, huntil, ?_, hlate⟩
    by_contra hzero
    rw [not_or, Bool.not_eq_true, Bool.not_eq_true] at hzero
    exact h ⟨url, hurl, untilTs, huntil, hlate, hzero⟩

theorem not_isDisabled {p : ProxyPool F} {now : F} {url : String} (h : ¬ p.CoolsDown now url) :
    p.isDisabled now url = false := by
  rw [← Bool.not_eq_true]
  intro hdisabled
  simp only [isDisabled, Option.any_eq_true, Bool.and_eq_true] at hdisabled
  obtain ⟨untilTs, huntil, -, hlate⟩ := hdisabled
  exact h ⟨untilTs, huntil, hlate⟩

/-- Since the epoch no cooldown ends at it. -/
theorem not_endsAtEpoch [Ordered F] {p : ProxyPool F} {now : F}
    (h : Routing.Builtins.le zero now = true) : ¬ p.EndsAtEpoch now := by
  rintro ⟨url, hurl, untilTs, huntil, hlate, hnot, -⟩
  rw [Ordered.lt_eq, Bool.not_eq_false'] at hnot
  rw [Ordered.lt_eq, Bool.not_eq_true', Ordered.le_trans _ _ _ hnot h] at hlate
  cases hlate

/-- A member is handed out, and none in cooldown while a healthy one exists. -/
structure InUse (p : ProxyPool F) (now : F) : Prop where
  member : (p.current now).1 ∈ p.args.proxies
  healthy : (∃ url ∈ p.args.proxies, ¬ p.CoolsDown now url) →
    ¬ p.CoolsDown now (p.current now).1

theorem inUse_of_not_endsAtEpoch {p : ProxyPool F} {now : F} (h : ¬ p.EndsAtEpoch now) :
    p.InUse now := by
  have hpick := p.current_mem now
  have hmember : (p.current now).1 ∈ p.args.proxies := mem_of_mem_choices hpick
  refine ⟨hmember, ?_⟩
  rintro ⟨url, hurl, hhealthy⟩
  have hkept : url ∈ p.args.proxies.filter (fun url => !p.isDisabled now url) :=
    List.mem_filter.mpr ⟨hurl, by simp [not_isDisabled hhealthy]⟩
  rw [choices, if_neg (List.ne_nil_of_mem hkept), List.mem_filter, Bool.not_eq_true'] at hpick
  rw [← isDisabled_iff h hmember, hpick.2]
  exact Bool.false_ne_true

/-! ### The place in the rotation -/

/-- The call is a `mark_request`. -/
def PoolCall.isMark {F : Type} : PoolCall F → Bool
  | markRequest => true
  | current _ | reportFailure _ _ => false

/-- How many requests were marked. -/
def marks {F : Type} (calls : List (PoolCall F)) : ℕ := calls.countP (·.isMark)

/-- The marks that a proxy is in use for; one is enough where fewer are asked for. -/
def perProxy (args : PoolArgs) : ℕ := (max 1 args.requestsPerProxy).toNat

omit [Builtins F] in
theorem perProxy_eq (args : PoolArgs) : (perProxy args : ℤ) = max 1 args.requestsPerProxy :=
  Int.toNat_of_nonneg (zero_le_one.trans (le_max_left _ _))

/-- The place in the rotation after `n` marks. -/
structure Turn (args : PoolArgs) (n : ℕ) (p : ProxyPool F) : Prop where
  args_eq : p.args = args
  sum : p.index * (perProxy args : ℤ) + p.windowCount = n
  nonneg : 0 ≤ p.windowCount
  less : p.windowCount < perProxy args

theorem args_reportFailure (p : ProxyPool F) (now : F) (url : String) :
    (p.reportFailure now url).args = p.args := by
  unfold reportFailure
  dsimp only
  split_ifs <;> rfl

omit [Builtins F] in
theorem markRequest_tables (p : ProxyPool F) : p.markRequest.args = p.args ∧
    p.markRequest.failures = p.failures ∧ p.markRequest.disabledUntil = p.disabledUntil := by
  unfold markRequest advance
  dsimp only
  split_ifs <;> exact ⟨rfl, rfl, rfl⟩

omit [Builtins F] in
theorem turn_of_window {args : PoolArgs} {n : ℕ} {p p' : ProxyPool F} (h : Turn args n p)
    (hargs : p'.args = p.args) (hwindow : p'.window = p.window) : Turn args n p' := by
  have hindex : p'.index = p.index := congrArg Prod.fst hwindow
  have hcount : p'.windowCount = p.windowCount := congrArg Prod.snd hwindow
  refine ⟨hargs.trans h.args_eq, ?_, ?_, ?_⟩
  · rw [hindex, hcount]
    exact h.sum
  · rw [hcount]
    exact h.nonneg
  · rw [hcount]
    exact h.less

omit [Builtins F] in
theorem Turn.mark {args : PoolArgs} {n : ℕ} {p : ProxyPool F} (h : Turn args n p) :
    Turn args (n + 1) p.markRequest := by
  obtain ⟨rfl, hsum, hnonneg, hless⟩ := h
  have hper := perProxy_eq p.args
  unfold markRequest advance
  dsimp only
  split_ifs with hfull
  · have heq : p.windowCount + 1 = perProxy p.args := by omega
    have hpos : (0 : ℤ) < perProxy p.args := by omega
    refine ⟨rfl, ?_, le_rfl, hpos⟩
    push_cast
    rw [← hsum, add_mul, one_mul, ← heq]
    ring
  · have hbelow : p.windowCount + 1 < perProxy p.args := by omega
    refine ⟨rfl, ?_, add_nonneg hnonneg Int.one_nonneg, hbelow⟩
    push_cast
    rw [← hsum]
    ring

/-- Every run keeps the place in the rotation. -/
theorem turn_final {args : PoolArgs} (calls : List (PoolCall F)) {n : ℕ} {p : ProxyPool F}
    (h : Turn args n p) :
    Turn args (n + marks calls) (Runs.final call p calls) := by
  induction calls generalizing n p with
  | nil => exact h
  | cons c calls ih =>
      rw [Runs.final_cons]
      cases c with
      | current now =>
          have hnext : Turn args n (p.call (.current now)) :=
            turn_of_window h (by rw [call, current_eq]; rfl) (window_current p now)
          simpa [marks, PoolCall.isMark] using ih hnext
      | markRequest =>
          have hnext : Turn args (n + 1) (p.call .markRequest) := h.mark
          have hcount : n + marks (.markRequest :: calls) = n + 1 + marks calls := by
            simp only [marks, PoolCall.isMark, List.countP_cons_of_pos]
            omega
          rw [hcount]
          exact ih hnext
      | reportFailure now url =>
          have hnext : Turn args n (p.call (.reportFailure now url)) :=
            turn_of_window h (args_reportFailure p now url) (window_reportFailure p now url)
          simpa [marks, PoolCall.isMark] using ih hnext

omit [Builtins F] in
theorem turn_init (args : PoolArgs) : Turn args 0 (init args : ProxyPool F) := by
  refine ⟨rfl, by simp [init], le_rfl, ?_⟩
  rw [perProxy_eq]
  exact lt_max_of_lt_left Int.one_pos

omit [Builtins F] in
theorem Turn.index_eq {args : PoolArgs} {n : ℕ} {p : ProxyPool F} (h : Turn args n p) :
    p.index = n / perProxy args := by
  obtain ⟨-, hsum, hnonneg, hless⟩ := h
  obtain ⟨count, hcount⟩ := Int.eq_ofNat_of_zero_le hnonneg
  rw [hcount] at hsum hless
  have hsum' : p.index * perProxy args + count = n := by exact_mod_cast hsum
  have hless' : count < perProxy args := by exact_mod_cast hless
  rw [← hsum', Nat.mul_comm, Nat.mul_add_div (by omega), Nat.div_eq_of_lt hless', Nat.add_zero]

theorem choices_of_healthy {p : ProxyPool F} {now : F}
    (h : ∀ url ∈ p.args.proxies, ¬ p.CoolsDown now url) : p.choices now = p.args.proxies := by
  have hall : p.args.proxies.filter (fun url => !p.isDisabled now url) = p.args.proxies :=
    List.filter_eq_self.mpr fun url hurl => by simp [not_isDisabled (h url hurl)]
  unfold choices
  dsimp only
  rw [hall, ite_self]

theorem pick_roundRobin {args : PoolArgs} (h : args.rotation ≠ "least_used") (index : ℕ)
    (available : List String) :
    pick args index available = available.getD (index % available.length) "" := by
  rcases available with - | ⟨url, - | ⟨other, urls⟩⟩
  · rw [pick, if_neg h]
    intro url hnil
    cases hnil
  · simp [pick, Nat.mod_one]
  · rw [pick, if_neg h]
    intro url' hcons
    cases hcons

/-- **In every run the index and the window count the marks, a proxy in cooldown is handed out
only while no member is healthy, unless a cooldown ends at the epoch, and healthy proxies take
turns.** -/
theorem healthy_in_use (args : PoolArgs) (hpos : 1 ≤ args.requestsPerProxy)
    (calls : List (PoolCall F)) :
    let p := Runs.final call (init args) calls
    (p.index * args.requestsPerProxy + p.windowCount = marks calls ∧ 0 ≤ p.windowCount ∧
      p.windowCount < args.requestsPerProxy) ∧
    ∀ now, (¬ p.EndsAtEpoch now → p.InUse now) ∧
      (args.rotation = "round_robin" → (∀ url ∈ args.proxies, ¬ p.CoolsDown now url) →
        (p.current now).1 = args.proxies.getD
          ((marks calls / args.requestsPerProxy.toNat) % args.proxies.length) "") := by
  have hturn := turn_final calls (turn_init (F := F) args)
  rw [Nat.zero_add] at hturn
  have hper : (perProxy args : ℤ) = args.requestsPerProxy :=
    (perProxy_eq args).trans (max_eq_right hpos)
  have hper' : perProxy args = args.requestsPerProxy.toNat := by omega
  refine ⟨⟨hper ▸ hturn.sum, hturn.nonneg, hper ▸ hturn.less⟩,
    fun now => ⟨inUse_of_not_endsAtEpoch, ?_⟩⟩
  intro hrotation hhealthy
  have hname : args.rotation ≠ "least_used" := by
    rw [hrotation]
    decide
  have hhealthy' : ∀ url ∈ (Runs.final call (init args) calls).args.proxies,
      ¬ (Runs.final call (init args) calls).CoolsDown now url := by
    rw [hturn.args_eq]
    exact hhealthy
  rw [current_eq, choices_of_healthy hhealthy', hturn.args_eq, pick_roundRobin hname,
    hturn.index_eq, hper']

/-- Two proxies, of which a failure disables one for 300 seconds. -/
def pairArgs (rotation : String) (requestsPerProxy failThreshold : ℤ) : PoolArgs :=
  ⟨["http://a:8080", "http://b:8080"], rotation, requestsPerProxy, failThreshold, 300, by decide⟩

/-- One of them cools down; and the other one is next after two marks. -/
theorem healthy_in_use_pair :
    (Runs.final call (init (pairArgs "round_robin" 2 1) : ProxyPool ℤ)
      [.markRequest, .reportFailure 1000 "http://a:8080"]).InUse 1200 ∧
    ((Runs.final call (init (pairArgs "round_robin" 2 1) : ProxyPool ℤ)
      [.markRequest, .markRequest, .markRequest]).current 1200).1 = "http://b:8080" := by
  have hcooling := (healthy_in_use (F := ℤ) (pairArgs "round_robin" 2 1) (by decide)
    [.markRequest, .reportFailure 1000 "http://a:8080"]).2 1200
  have hmarked := (healthy_in_use (F := ℤ) (pairArgs "round_robin" 2 1) (by decide)
    [.markRequest, .markRequest, .markRequest]).2 1200
  refine ⟨hcooling.1 (not_endsAtEpoch (by decide)), hmarked.2 rfl fun url _ => ?_⟩
  rintro ⟨untilTs, huntil, -⟩
  cases huntil

/-- Before the epoch, a cooldown that ends at it is overlooked. -/
theorem disabled_in_use : ¬ ∀ (args : PoolArgs) (calls : List (PoolCall ℤ)) (now : ℤ),
    1 ≤ args.requestsPerProxy → (Runs.final call (init args) calls).InUse now := by
  intro h
  have hinUse := h (pairArgs "round_robin" 1 1) [.reportFailure (-300) "http://a:8080"] (-300)
    (by decide)
  have hother : ¬ (Runs.final call (init (pairArgs "round_robin" 1 1))
      [.reportFailure (-300) "http://a:8080"]).CoolsDown (-300) "http://b:8080" := by
    rintro ⟨untilTs, huntil, -⟩
    cases huntil
  exact hinUse.healthy ⟨"http://b:8080", by decide, hother⟩ ⟨0, rfl, rfl⟩

end FirewallLLM.Py.ProxyPool
