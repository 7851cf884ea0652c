import FirewallLLM.PyValue
import FirewallLLM.Router
import FirewallLLM.Runs

/-! # Egress pools and the adapter

`ProxyPool` of `egress_pools.py` behind `OpenAICompatAdapter` of `openai_compat.py`.  The adapter
asks its manager for the current proxy twice, for the client and for the report of a failure; it
keeps a client for each proxy, so that the client tells which proxy carries the request.  The
answer of the provider and the clock readings come with the calls.

The adapter looks up `mark` on its manager, which `ProxyPool` does not have: its method is called
`mark_request`.

`counted_iff`: the calls of a run are counted and their failures reported exactly if none of them
completes and each failure finds the same proxy twice. -/

namespace FirewallLLM.Py

open Dlp (Text)
open Routing (Builtins)
open Routing.Builtins (lt add zero round)

/-! ### The pool -/

inductive Rotation where
  | roundRobin | random | leastUsed
deriving DecidableEq

/-- `PoolConfig`. -/
structure PoolConfig where
  proxies : List String
  rotation : Rotation
  requestsPerProxy : ℤ
  failThreshold : ℤ
  cooldownSeconds : ℤ
  nonempty : proxies ≠ []
  requests_pos : 1 ≤ requestsPerProxy
  threshold_pos : 1 ≤ failThreshold
  cooldown_pos : 1 ≤ cooldownSeconds

/-- The arguments of `ProxyPool`; it raises for no proxies. -/
structure PoolArgs where
  proxies : List String
  rotation : String
  requestsPerProxy : ℤ
  failThreshold : ℤ
  cooldownSeconds : ℤ
  nonempty : proxies ≠ []

/-- `ProxyPool`. -/
structure ProxyPool (F : Type) where
  args : PoolArgs
  index : ℕ
  windowCount : ℤ
  failures : String → Option ℤ
  disabledUntil : String → Option F

variable {F : Type} [Builtins F]

/-- `ProxyPool.__init__`. -/
def ProxyPool.init (args : PoolArgs) : ProxyPool F := ⟨args, 0, 0, fun _ => none, fun _ => none⟩

/-- The name of a rotation in the configuration. -/
def Rotation.name : Rotation → String
  | roundRobin => "round_robin"
  | random => "random"
  | leastUsed => "least_used"

/-- `build_pool`. -/
def buildPool (config : PoolConfig) : ProxyPool F :=
  ProxyPool.init ⟨config.proxies, config.rotation.name, config.requestsPerProxy,
    config.failThreshold, config.cooldownSeconds, config.nonempty⟩

namespace ProxyPool

/-- `until and until > now`. -/
def isDisabled (p : ProxyPool F) (now : F) (url : String) : Bool :=
  (p.disabledUntil url).any (fun untilTs =>
    (lt zero untilTs || lt untilTs zero) && lt now untilTs)

/-- The failure state of a proxy is cleared when its cooldown has elapsed. -/
def clear (p : ProxyPool F) (url : String) : ProxyPool F :=
  if (p.disabledUntil url).isSome then
    { p with
      failures := Function.update p.failures url none
      disabledUntil := Function.update p.disabledUntil url none }
  else p

/-- The loop of `_available`. -/
def enabled (now : F) : List String → ProxyPool F → List String × ProxyPool F
  | [], p => ([], p)
  | url :: urls, p =>
      if p.isDisabled now url then enabled now urls p
      else
        let (available, p) := enabled now urls (p.clear url)
        (url :: available, p)

/-- `_available`. -/
def available (p : ProxyPool F) (now : F) : List String × ProxyPool F :=
  let (available, p) := enabled now p.args.proxies p
  (if available = [] then p.args.proxies else available, p)

/-- `_active_url`. -/
def activeUrl (p : ProxyPool F) : String :=
  p.args.proxies.getD (p.index % p.args.proxies.length) ""

/-- `current`. -/
def current (p : ProxyPool F) (now : F) : String × ProxyPool F :=
  let (available, p) := p.available now
  (match available with
    | [url] => url
    | available =>
        if p.args.rotation = "least_used" then
          -- the first one with the least key
          (available.find? (· ≠ p.activeUrl)).getD (available.headD "")
        else available.getD (p.index % available.length) "",
    p)

/-- `_advance`. -/
def advance (p : ProxyPool F) : ProxyPool F := { p with index := p.index + 1, windowCount := 0 }

/-- `mark_request`. -/
def markRequest (p : ProxyPool F) : ProxyPool F :=
  let p := { p with windowCount := p.windowCount + 1 }
  if p.windowCount ≥ p.args.requestsPerProxy then p.advance else p

/-- `report_failure`. -/
def reportFailure (p : ProxyPool F) (now : F) (url : String) : ProxyPool F :=
  let failures := (p.failures url).getD 0 + 1
  let p := { p with failures := Function.update p.failures url (some failures) }
  if failures ≥ p.args.failThreshold then
    { p with
      disabledUntil := Function.update p.disabledUntil url
        (some (add now (round p.args.cooldownSeconds))) }
  else p

/-- The place in the rotation. -/
def window (p : ProxyPool F) : ℕ × ℤ := (p.index, p.windowCount)

end ProxyPool

/-! ### The adapter -/

/-- What the adapter finds on its manager; the method `mark` may be missing. -/
structure EgressManager (F σ : Type) where
  current : σ → F → String × σ
  mark : Option (σ → σ)
  reportFailure : σ → F → String → σ

/-- `ProxyPool` as a manager: it has no attribute `mark`. -/
def ProxyPool.manager : EgressManager F (ProxyPool F) :=
  ⟨ProxyPool.current, none, ProxyPool.reportFailure⟩

/-- The readings of the clock during a call. -/
structure Readings (F : Type) where
  client : F
  proxy : F
  report : F

/-- What comes of a post: an `HTTPError`, another exception, or a response with its JSON. -/
inductive ChatAnswer where
  | failed (exc : String)
  | raised (exc : Exn)
  | response (status : ℤ) (text : Text) (json : Option Value)

/-- How a response ends behind its lines. -/
inductive Ending where
  | eof
  | failed (exc : String)
  | raised (exc : Exn)

/-- What comes of a streamed post; a refusal is a status from 400 on, whose body is read. -/
inductive StreamAnswer where
  | failed (exc : String)
  | raised (exc : Exn)
  | refused (status : ℤ) (body : Except String Text)
  | lines (lines : List Text) (ending : Ending)

/-- What a call gives, and what the manager was told. -/
structure CallOutcome (σ α : Type) where
  result : α
  carrier : String
  reports : List String
  state : σ

namespace EgressManager

variable {σ : Type} (m : EgressManager F σ)

/-- The client and the proxy that a failure is reported for. -/
def select (s : σ) (t : Readings F) : String × String × σ :=
  let (carrier, s) := m.current s t.client
  let (proxyUrl, s) := m.current s t.proxy
  (carrier, proxyUrl, s)

/-- The `except` clause for `HTTPError`: an empty proxy is not reported. -/
def fail (s : σ) (t : Readings F) (proxyUrl : String) : List String × σ :=
  if proxyUrl ≠ "" then ([proxyUrl], m.reportFailure s t.report proxyUrl) else ([], s)

/-- `self._proxy_manager.mark()`. -/
def doMark (s : σ) : Except Exn Unit × σ :=
  match m.mark with
  | some mark => (.ok (), mark s)
  | none => (.error (.other "AttributeError" "object has no attribute 'mark'"), s)

end EgressManager

def connectionFailed (exc : String) : Exn := .provider s!"provider connection failed: {exc}"

/-- The rest of `chat` with a response. -/
def chatResult (status : ℤ) (text : Text) (json : Option Value) : Except Exn Value :=
  if status ≥ 400 then
    .error (.provider s!"provider returned {status}: {String.ofList (text.take 200)}")
  else match json with
    | some data => .ok data
    | none => .error (.provider "provider returned non-JSON body")

/-- `chat`. -/
def adapterChat {σ : Type} (m : EgressManager F σ) (s : σ) (t : Readings F) (answer : ChatAnswer) :
    CallOutcome σ (Except Exn Value) :=
  let (carrier, proxyUrl, s) := m.select s t
  match answer with
  | .failed exc =>
      let (reports, s) := m.fail s t proxyUrl
      ⟨.error (connectionFailed exc), carrier, reports, s⟩
  | .raised exc => ⟨.error exc, carrier, [], s⟩
  | .response status text json =>
      match m.doMark s with
      | (.error exc, s) => ⟨.error exc, carrier, [], s⟩
      | (.ok (), s) => ⟨chatResult status text json, carrier, [], s⟩

/-- How lines are read: `strip` and `json.loads`. -/
structure LineReader where
  unicode : Unicode
  loads : Text → Option Value

namespace LineReader

/-- The data of a line. -/
def data? (r : LineReader) (line : Text) : Option Text :=
  if "data: ".toList.isPrefixOf line then some (strip r.unicode (line.drop 6)) else none

/-- What is yielded of the lines, and whether `[DONE]` was among them. -/
def read (r : LineReader) : List Text → List Value × Bool
  | [] => ([], false)
  | line :: lines =>
      match r.data? line with
      | none => r.read lines
      | some data =>
          if data = "[DONE]".toList then ([], true)
          else match r.loads data with
            | some chunk => (chunk :: (r.read lines).1, (r.read lines).2)
            | none => r.read lines

end LineReader

/-- `chat_stream`: the chunks and how the generator ends. -/
def adapterStream {σ : Type} (r : LineReader) (m : EgressManager F σ) (s : σ) (t : Readings F)
    (answer : StreamAnswer) : CallOutcome σ (List Value × Except Exn Unit) :=
  let (carrier, proxyUrl, s) := m.select s t
  let failed := fun (chunks : List Value) exc =>
    let (reports, s) := m.fail s t proxyUrl
    (⟨(chunks, .error (connectionFailed exc)), carrier, reports, s⟩ : CallOutcome σ _)
  match answer with
  | .failed exc => failed [] exc
  | .raised exc => ⟨([], .error exc), carrier, [], s⟩
  | .refused _ (.error exc) => failed [] exc
  | .refused status (.ok body) =>
      ⟨([], .error (.provider s!"provider returned {status}: {String.ofList (body.take 200)}")),
        carrier, [], s⟩
  | .lines lines ending =>
      match r.read lines with
      | (chunks, true) => ⟨(chunks, .ok ()), carrier, [], s⟩
      | (chunks, false) =>
          match ending with
          | .eof =>
              let (result, s) := m.doMark s
              ⟨(chunks, result), carrier, [], s⟩
          | .failed exc => failed chunks exc
          | .raised exc => ⟨(chunks, .error exc), carrier, [], s⟩

/-! ### Runs -/

/-- A call of the adapter, with its clock readings and its answer. -/
inductive AdapterCall (F : Type) where
  | chat (t : Readings F) (answer : ChatAnswer)
  | stream (t : Readings F) (answer : StreamAnswer)

namespace AdapterCall

/-- The result of either call. -/
abbrev Result := Except Exn Value ⊕ (List Value × Except Exn Unit)

/-- What a call gives with a manager. -/
def outcome {σ : Type} (r : LineReader) (m : EgressManager F σ) (s : σ) :
    AdapterCall F → CallOutcome σ Result
  | chat t answer =>
      let out := adapterChat m s t answer
      ⟨.inl out.result, out.carrier, out.reports, out.state⟩
  | stream t answer =>
      let out := adapterStream r m s t answer
      ⟨.inr out.result, out.carrier, out.reports, out.state⟩

/-- The clock readings of a call. -/
def readings : AdapterCall F → Readings F
  | chat t _ | stream t _ => t

/-- The call gets a response; that of a stream is read to `[DONE]` or to its end. -/
def completes (r : LineReader) : AdapterCall F → Bool
  | chat _ (.response ..) | stream _ (.refused _ (.ok _)) | stream _ (.lines _ .eof) => true
  | stream _ (.lines lines _) => (r.read lines).2
  | _ => false

/-- The connection fails. -/
def fails (r : LineReader) : AdapterCall F → Bool
  | chat _ (.failed _) | stream _ (.failed _) | stream _ (.refused _ (.error _)) => true
  | stream _ (.lines lines (.failed _)) => !(r.read lines).2
  | _ => false

end AdapterCall

/-- The manager of an adapter with a fixed client: nothing is counted or reported. -/
def fixedClient : EgressManager F Unit := ⟨fun _ _ => ("", ()), some id, fun _ _ _ => ()⟩

namespace ProxyPool

variable (r : LineReader)

/-- A call through the pool. -/
def step (p : ProxyPool F) (c : AdapterCall F) : ProxyPool F := (c.outcome r manager p).state

/-- A call that completes advances the window once and gives what it gives without the pool; a
connection failure is reported once, for the proxy that carried the request. -/
structure Counts (p : ProxyPool F) (c : AdapterCall F) : Prop where
  advances : c.completes r = true → (p.step r c).window = p.markRequest.window
  served : c.completes r = true →
    (c.outcome r manager p).result = (c.outcome r fixedClient ()).result
  reported : (c.outcome r manager p).reports =
    if c.fails r then [(c.outcome r manager p).carrier] else []

/-- Every call of a run is counted, and without failures the pool moves to the next proxy after
exactly `requests_per_proxy` calls that complete. -/
def Counted (config : PoolConfig) (calls : List (AdapterCall F)) : Prop :=
  Runs.Along (step r) (Counts r) (buildPool config) calls ∧
    ((∀ c ∈ calls, c.fails r = false) →
      (Runs.final (step r) (buildPool config) calls).index =
        (calls.countP (·.completes r)) / config.requestsPerProxy.toNat)

/-- The call does not complete, and if it fails, both readings of the clock give the same
proxy, which is not empty. -/
def Spared (p : ProxyPool F) (c : AdapterCall F) : Prop :=
  c.completes r = false ∧ (c.fails r = true →
    ((p.current c.readings.client).2.current c.readings.proxy).1 =
        (p.current c.readings.client).1 ∧
      (p.current c.readings.client).1 ≠ "")

variable {r}

/-! ### What keeps the window -/

omit [Builtins F] in
theorem window_clear (p : ProxyPool F) (url : String) : (p.clear url).window = p.window := by
  unfold clear
  split_ifs <;> rfl

theorem window_enabled (now : F) (urls : List String) (p : ProxyPool F) :
    (enabled now urls p).2.window = p.window := by
  induction urls generalizing p with
  | nil => rfl
  | cons url urls ih =>
      rw [enabled]
      split_ifs
      · exact ih p
      · exact (ih (p.clear url)).trans (window_clear p url)

theorem window_current (p : ProxyPool F) (now : F) : (p.current now).2.window = p.window :=
  window_enabled now p.args.proxies p

theorem window_reportFailure (p : ProxyPool F) (now : F) (url : String) :
    (p.reportFailure now url).window = p.window := by
  unfold reportFailure
  dsimp only
  split_ifs <;> rfl

theorem window_fail (p : ProxyPool F) (t : Readings F) (url : String) :
    (EgressManager.fail manager p t url).2.window = p.window := by
  unfold EgressManager.fail
  split_ifs
  · exact window_reportFailure p t.report url
  · rfl

omit [Builtins F] in
theorem window_markRequest (p : ProxyPool F) : p.markRequest.window ≠ p.window := by
  intro h
  unfold markRequest advance window at h
  dsimp only at h
  split_ifs at h
  · have hindex := congrArg Prod.fst h
    dsimp only at hindex
    omega
  · have hcount := congrArg Prod.snd h
    dsimp only at hcount
    omega

/-- The pool after both readings. -/
def selected (p : ProxyPool F) (t : Readings F) : ProxyPool F :=
  ((p.current t.client).2.current t.proxy).2

theorem window_selected (p : ProxyPool F) (t : Readings F) : (p.selected t).window = p.window :=
  (window_current _ t.proxy).trans (window_current p t.client)

/-- What a call does to the pool: nothing more than to select, or to report a failure. -/
theorem step_cases (r : LineReader) (p : ProxyPool F) (c : AdapterCall F) :
    (c.fails r = false ∧ (c.outcome r manager p).reports = [] ∧
        p.step r c = p.selected c.readings) ∨
      (c.fails r = true ∧ c.completes r = false ∧ ∃ url,
        url = ((p.current c.readings.client).2.current c.readings.proxy).1 ∧
        (c.outcome r manager p).reports =
          (EgressManager.fail manager (p.selected c.readings) c.readings url).1 ∧
        p.step r c = (EgressManager.fail manager (p.selected c.readings) c.readings url).2) := by
  cases c with
  | chat t answer =>
      cases answer with
      | failed exc => exact .inr ⟨rfl, rfl, _, rfl, rfl, rfl⟩
      | raised exc => exact .inl ⟨rfl, rfl, rfl⟩
      | response status text json => exact .inl ⟨rfl, rfl, rfl⟩
  | stream t answer =>
      cases answer with
      | failed exc => exact .inr ⟨rfl, rfl, _, rfl, rfl, rfl⟩
      | raised exc => exact .inl ⟨rfl, rfl, rfl⟩
      | refused status body =>
          cases body with
          | error exc => exact .inr ⟨rfl, rfl, _, rfl, rfl, rfl⟩
          | ok body => exact .inl ⟨rfl, rfl, rfl⟩
      | lines lines ending =>
          rcases hread : r.read lines with ⟨chunks, done⟩
          cases done with
          | true =>
              left
              cases ending <;>
                simp [AdapterCall.fails, AdapterCall.outcome, adapterStream, step, hread,
                  selected, AdapterCall.readings, EgressManager.select, manager]
          | false =>
              cases ending with
              | eof =>
                  left
                  simp [AdapterCall.fails, AdapterCall.outcome, adapterStream, step, hread,
                    selected, AdapterCall.readings, EgressManager.select, manager,
                    EgressManager.doMark]
              | failed exc =>
                  right
                  simp [AdapterCall.fails, AdapterCall.completes, AdapterCall.outcome,
                    adapterStream, step, hread, selected, AdapterCall.readings,
                    EgressManager.select, manager]
              | raised exc =>
                  left
                  simp [AdapterCall.fails, AdapterCall.outcome, adapterStream, step, hread,
                    selected, AdapterCall.readings, EgressManager.select, manager]

/-- **No call moves the window.** -/
theorem window_step (p : ProxyPool F) (c : AdapterCall F) : (p.step r c).window = p.window := by
  rcases step_cases r p c with ⟨-, -, h⟩ | ⟨-, -, url, -, -, h⟩
  · rw [h, window_selected]
  · rw [h, window_fail, window_selected]

theorem carrier_eq (p : ProxyPool F) (c : AdapterCall F) :
    (c.outcome r manager p).carrier = (p.current c.readings.client).1 := by
  cases c with
  | chat t answer => cases answer <;> rfl
  | stream t answer =>
      cases answer with
      | failed exc => rfl
      | raised exc => rfl
      | refused status body => cases body <;> rfl
      | lines lines ending =>
          rcases hread : r.read lines with ⟨chunks, done⟩
          cases done <;> cases ending <;>
            simp [AdapterCall.outcome, adapterStream, hread, AdapterCall.readings,
              EgressManager.select, manager]

/-- A call is counted exactly if it is spared. -/
theorem counts_iff (p : ProxyPool F) (c : AdapterCall F) : Counts r p c ↔ Spared r p c := by
  constructor
  · intro h
    have hcompletes : c.completes r = false := by
      by_contra hc
      have hadv := h.advances (by simpa using hc)
      rw [window_step] at hadv
      exact window_markRequest p hadv.symm
    refine ⟨hcompletes, fun hfails => ?_⟩
    have hreported := h.reported
    rw [if_pos hfails, carrier_eq] at hreported
    rcases step_cases r p c with ⟨hnot, -⟩ | ⟨-, -, url, hurl, hreports, -⟩
    · rw [hfails] at hnot
      cases hnot
    · rw [hreports, EgressManager.fail] at hreported
      split_ifs at hreported with hne
      have heq : url = (p.current c.readings.client).1 := List.singleton_injective hreported
      rw [← hurl, ← heq]
      exact ⟨rfl, hne⟩
  · rintro ⟨hcompletes, hfails⟩
    refine ⟨fun h => ?_, fun h => ?_, ?_⟩
    · rw [hcompletes] at h
      cases h
    · rw [hcompletes] at h
      cases h
    · rcases step_cases r p c with ⟨hnot, hreports, -⟩ | ⟨hf, -, url, hurl, hreports, -⟩
      · rw [hreports, hnot, if_neg Bool.false_ne_true]
      · obtain ⟨heq, hne⟩ := hfails hf
        rw [← hurl] at heq
        subst heq
        rw [hreports, hf, if_pos rfl, EgressManager.fail, if_pos hne, carrier_eq]

/-- **The calls of a run are counted exactly if none completes and each failure finds the same
proxy twice.** -/
theorem counted_iff (r : LineReader) (config : PoolConfig) (calls : List (AdapterCall F)) :
    Counted r config calls ↔ Runs.Along (step r) (Spared r) (buildPool config) calls := by
  have hiff : ∀ (p : ProxyPool F) calls,
      Runs.Along (step r) (Counts r) p calls ↔ Runs.Along (step r) (Spared r) p calls := by
    intro p calls
    refine ⟨fun h => h.mono fun p c => (counts_iff p c).mp,
      fun h => h.mono fun p c => (counts_iff p c).mpr⟩
  unfold Counted
  rw [hiff, and_iff_left_iff_imp]
  intro hspared _
  have hwindow : (Runs.final (step r) (buildPool config) calls).window = (0, 0) :=
    Runs.final_invariant (I := fun p : ProxyPool F => p.window = (0, 0))
      (fun p c hp _ => (window_step p c).trans hp) rfl hspared
  have hindex : (Runs.final (step r) (buildPool config) calls).index = 0 :=
    congrArg Prod.fst hwindow
  have hnone : Runs.Along (step r) (fun _ c => c.completes r = false) (buildPool config) calls :=
    hspared.mono fun _ _ h => h.1
  have hcount : calls.countP (·.completes r) = 0 := by
    rw [List.countP_eq_zero]
    intro c hc
    simpa using hnone.forall c hc
  rw [hindex, hcount, Nat.zero_div]

/-! ### One completion -/

/-- Two proxies that take turns. -/
def twoProxies : PoolConfig :=
  ⟨["http://p1:8080", "http://p2:8080"], .roundRobin, 1, 3, 300, by decide, by decide, by decide,
    by decide⟩

/-- No line is read in this run. -/
def noLines : LineReader := ⟨⟨fun _ => none, fun _ => false⟩, fun _ => none⟩

/-- One chat that gets its completion. -/
def oneChat : AdapterCall ℤ := .chat ⟨0, 0, 0⟩ (.response 200 "{}".toList (some (.dict [])))

/-- The completion is lost in an `AttributeError`. -/
theorem completion_lost : ¬ Counted noLines twoProxies [oneChat] := by
  intro h
  have hserved := h.1.1.served rfl
  have hmissing : (oneChat.outcome noLines manager (buildPool twoProxies)).result =
      .inl (.error (.other "AttributeError" "object has no attribute 'mark'")) := rfl
  rw [hmissing] at hserved
  have hdata : (oneChat.outcome noLines fixedClient ()).result = .inl (.ok (.dict [])) := rfl
  rw [hdata] at hserved
  cases hserved

end ProxyPool

end FirewallLLM.Py
