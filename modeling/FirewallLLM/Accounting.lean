import FirewallLLM.ChoiceRestore

/-! # What an answer costs

The usage of an answer without a usage object is estimated, from the prompt and from the text
of the answer.  The body of a stream reads the prompt off the payload that it sends; the handler
of a completion reads it off a payload that has been taken.

`accounting_agrees_iff`: a request with one text as its answer is accounted for alike, streamed
or not, with the estimate of the forwarded prompt, exactly when this estimate is zero. -/

namespace FirewallLLM

namespace Dlp

/-! ### The cells of a stream -/

@[simp] theorem noteUsage_completionText (st : StreamState) (chunk : Json) :
    (noteUsage st chunk).completionText = st.completionText := by
  unfold noteUsage
  split <;> rfl

/-- What has been restored of a stream, and what will be: a choice moves its text from the
second part to the first. -/
theorem restoreChoices_stream (st : StreamState) (choices : List Json) (rest : List Text) :
    (restoreChoices st choices).2.completionText ++ (restoreChoices st choices).2.session.stream rest =
      st.completionText ++
        st.session.stream ((choices.filterMap deltaOf).map Prod.snd ++ rest) := by
  induction choices generalizing st with
  | nil => rfl
  | cons choice choices ih =>
      simp only [restoreChoices]
      rw [ih, List.filterMap_cons]
      unfold restoreChoice deltaOf
      cases deltaContent choice with
      | none => rfl
      | some delta =>
          simp only [Option.map_some, List.map_cons, List.cons_append, StreamRestore.stream]
          rw [List.append_assoc]

theorem restoreChoices_lastUsage (st : StreamState) (choices : List Json) :
    (restoreChoices st choices).2.lastUsage = st.lastUsage := by
  induction choices generalizing st with
  | nil => rfl
  | cons choice choices ih =>
      simp only [restoreChoices]
      rw [ih]
      unfold restoreChoice
      cases deltaContent choice <;> rfl

theorem mapItem_stream (st : StreamState) (item : Item) (rest : List Text) :
    (mapItem st item).2.completionText ++ (mapItem st item).2.session.stream rest =
      st.completionText ++ st.session.stream ((fed [item]).map Prod.snd ++ rest) := by
  cases item with
  | error err => rfl
  | ok chunk =>
      unfold mapItem fed
      simp only [List.flatMap_cons, List.flatMap_nil, List.append_nil, deltas]
      cases choicesOf chunk with
      | none => simp
      | some choices =>
          dsimp only
          rw [restoreChoices_stream, noteUsage_completionText, noteUsage_session, Option.getD_some]

end Dlp

namespace Chat

open Dlp (Text Item StreamState StreamRestore fed)

/-! ### The estimate of a stream -/

theorem drained_completionText (st : StreamState) (items : List Item) :
    (drained st items).completionText =
      st.completionText ++ st.session.stream ((fed items).map Prod.snd) := by
  induction items generalizing st with
  | nil => rfl
  | cons item items ih =>
      have hfed : fed (item :: items) = fed [item] ++ fed items := by
        simp [fed]
      rw [drained, ih, Dlp.mapItem_stream, hfed, List.map_append]

theorem noteUsage_of_none {st : StreamState} {chunk : Json}
    (h : upstreamUsage (chunk.get? "usage") = none) : Dlp.noteUsage st chunk = st := by
  unfold upstreamUsage at h
  unfold Dlp.noteUsage
  cases hu : (chunk.get? "usage").bind Json.asObj? with
  | none => rfl
  | some fields =>
      cases fields with
      | nil => rfl
      | cons f fs => simp [hu] at h

theorem drained_lastUsage {st : StreamState} {items : List Item}
    (h : ∀ chunk, .ok chunk ∈ items → upstreamUsage (chunk.get? "usage") = none) :
    (drained st items).lastUsage = st.lastUsage := by
  induction items generalizing st with
  | nil => rfl
  | cons item items ih =>
      rw [drained, ih (fun chunk hmem => h chunk (List.mem_cons_of_mem _ hmem))]
      cases item with
      | error err => rfl
      | ok chunk =>
          simp only [Dlp.mapItem, noteUsage_of_none (h chunk List.mem_cons_self)]
          cases Dlp.choicesOf chunk with
          | none => rfl
          | some choices => exact Dlp.restoreChoices_lastUsage st choices

theorem usageNumbers_of_none {usage : Option Json} (h : upstreamUsage usage = none)
    (promptText completionText : Text) : usageNumbers usage promptText completionText =
      ((estimateUsage promptText completionText).1, (estimateUsage promptText completionText).2,
        "estimated") := by
  unfold usageNumbers
  rw [h]

theorem usage_drained {a : Accountant} {session : StreamRestore} {items : List Item}
    (hvault : session.vault.WellFormed) (hcarry : session.carry = [])
    (h : ∀ chunk, .ok chunk ∈ items → upstreamUsage (chunk.get? "usage") = none) :
    a.usage (drained (StreamState.new session) items) =
      ((estimateUsage a.requestText []).1,
        (estimateUsage [] (session.restore ((fed items).map Prod.snd).flatten)).2, "estimated") := by
  unfold Accountant.usage
  rw [drained_lastUsage h, drained_completionText, usageNumbers_of_none rfl]
  change (_, (estimateUsage _ ([] ++ session.stream _)).2, _) = _
  rw [StreamRestore.stream_eq_restore hvault, hcarry]
  rfl

/-! ### The estimate of a completion -/

theorem usage_tagRouted {requested concrete : String} {completion tagged : Json}
    (h : tagRouted requested concrete completion = some tagged) :
    tagged.get? "usage" = completion.get? "usage" := by
  have hkey : "usage" ≠ "routed_from" := by decide
  unfold tagRouted at h
  split_ifs at h
  · cases completion with
    | null =>
        cases h
        rfl
    | obj fields =>
        cases h
        rw [Json.get?_set_of_ne hkey]
    | _ => cases h
  · cases h
    rfl

theorem usage_restoreFirst (g : Gateway) (chain : Inspectors.DlpState) (completion : Json) :
    (restoreFirst g chain completion).get? "usage" = completion.get? "usage" := by
  unfold restoreFirst
  cases firstContent completion with
  | none => rfl
  | some content => exact Json.get?_modify_of_ne (by decide) _ _

/-- The estimate of a completion with one text and without usage object: there is no prompt. -/
theorem completionUsage_eq {out : Json} {text : Text} (hc : contents out = [some text])
    (husage : upstreamUsage (out.get? "usage") = none) :
    completionUsage out = (0, (estimateUsage [] text).2, "estimated") := by
  have htexts : (completionChoices out).filterMap choiceContent = [text] := by
    have hmap : (completionChoices out).filterMap choiceContent = (contents out).filterMap id := by
      unfold contents
      rw [List.filterMap_map]
      rfl
    rw [hmap, hc]
    rfl
  unfold completionUsage
  rw [usageNumbers_of_none husage, htexts]
  have hjoin : joinLines [text] = text := by
    unfold joinLines
    simp
  rw [hjoin]
  rfl

theorem chainOf_off {cfg : Inspectors.Config} {e : Inspectors.Engine} {ord : Dlp.VaultOrder}
    {draws : List (UInt64 × UInt64)} {clientId : String} {body : ChatCompletionRequest}
    {chain : Inspectors.DlpState} (hoff : cfg.dlpMode = "off")
    (h : chainOf cfg e ord draws clientId body = some chain) : chain.vault = [] := by
  obtain ⟨out, hout, hchain⟩ := Option.bind_eq_some_iff.mp h
  have hstage : ∀ payload, Inspectors.dlpStage cfg.dlpMode e.patterns ord payload draws =
      some (payload, .ok ⟨[], [], draws⟩) := by
    intro payload
    unfold Inspectors.dlpStage
    rw [if_neg (not_not.mpr hoff)]
  rcases Inspectors.processRequest_cases hout with ⟨-, err, herr⟩ | ⟨-, hdlp⟩
  · rw [herr] at hchain
    cases hchain
  · rw [hstage] at hdlp
    obtain ⟨-, hres⟩ := Prod.mk.inj (Option.some.inj hdlp)
    rw [← hres] at hchain
    cases hchain
    rfl

theorem processResponse_eq_restore {g : Gateway} {chain : Inspectors.DlpState}
    (hoff : g.dlpMode = "off" → chain.vault = []) (text : Text) :
    g.processResponse text chain =
      (StreamRestore.new chain.vault chain.scope g.policy).restore text := by
  unfold Gateway.processResponse StreamRestore.restore
  split_ifs with hmode
  · change text = Dlp.deanonymize text chain.vault chain.scope g.policy
    rw [hoff hmode]
    rfl
  · rfl

/-! ### Both modes -/

theorem mem_accounts {a : Accountant} {usage : UInt64 × UInt64 × String} {f : Figures}
    (h : f ∈ a.accounts usage) : f.prompt = usage.1.toInt64 := by
  unfold Accountant.accounts Accountant.charges at h
  rcases List.mem_append.mp h with h | h
  · split_ifs at h
    · rw [List.mem_singleton.mp h]
    · cases h
  · rw [List.mem_singleton.mp h]

theorem accounts_eq_iff {a a' : Accountant} (hm : a.metering = a'.metering)
    {prompt prompt' done : UInt64} {source : String} :
    a.accounts (prompt, done, source) = a'.accounts (prompt', done, source) ↔ prompt = prompt' := by
  constructor
  · intro h
    have hlast := congrArg List.getLast? h
    unfold Accountant.accounts at hlast
    rw [List.getLast?_concat, List.getLast?_concat] at hlast
    have hprompt : prompt.toInt64 = prompt'.toInt64 := (Figures.mk.inj (Option.some.inj hlast)).1
    simpa using congrArg Int64.toUInt64 hprompt
  · rintro rfl
    unfold Accountant.accounts Accountant.charges
    rw [hm]

/-- What a request accounts for, streamed or not: the same figures, with the estimate of the
forwarded prompt. -/
structure Agree (o : Oracle) (g : Gateway) (requestId clientId : String)
    (body : ChatCompletionRequest) (t t' : State) : Prop where
  same : t.figures = t'.figures
  prompt : ∀ payload, forwarded o (chatCompletions g requestId clientId { body with stream := true })
      { init g requestId clientId body with handler := none } = some payload →
    ∀ f ∈ t.figures ++ t'.figures, f.prompt = (estimateUsage (promptText payload) []).1.toInt64

/-- **The accounting of the two modes agrees exactly when no prompt is forwarded that is
estimated at more than zero.** -/
theorem accounting_agrees_iff {o : Oracle} {cfg : Inspectors.Config} {e : Inspectors.Engine}
    {ord : Dlp.VaultOrder} {draws : List (UInt64 × UInt64)} {g : Gateway}
    {requestId clientId : String} {body : ChatCompletionRequest} {completion : Json}
    {items : List Item} {text : Text} {reply reply' : Reply} {t t' : State}
    (hinspect : Inspects o cfg e ord draws) (hmode : cfg.dlpMode = g.dlpMode)
    (hvault : ∀ chain, chainOf cfg e ord draws clientId body = some chain → chain.vault.WellFormed)
    (hchat : ∀ payload, o (.chat payload) = some (.ok completion))
    (hstream : ∀ payload, o (.chatStream payload) = some (.ok items))
    (htext : contents completion = [some text]) (htexts : ((fed items).map Prod.snd).flatten = text)
    (husage : upstreamUsage (completion.get? "usage") = none)
    (husages : ∀ chunk, .ok chunk ∈ items → upstreamUsage (chunk.get? "usage") = none)
    (hrun : served g requestId clientId { body with stream := true } o = some (reply, t))
    (hrun' : served g requestId clientId { body with stream := false } o = some (reply', t')) :
    Agree o g requestId clientId body t t' ↔
      ∀ payload, forwarded o (chatCompletions g requestId clientId { body with stream := true })
        { init g requestId clientId body with handler := none } = some payload →
        (estimateUsage (promptText payload) []).1 = 0 := by
  obtain ⟨⟨r, u⟩, hs, hb⟩ := Option.bind_eq_some_iff.mp hrun
  obtain ⟨v, hv, heq⟩ := Option.map_eq_some_iff.mp hb
  cases heq
  obtain ⟨⟨r', u'⟩, hs', hb'⟩ := Option.bind_eq_some_iff.mp hrun'
  obtain ⟨v', hv', heq'⟩ := Option.map_eq_some_iff.mp hb'
  cases heq'
  cases alike_chatCompletions hinspect g requestId clientId body true false
      { init g requestId clientId body with handler := none } with
  | stuck h => cases h.symm.trans hs
  | refused err v v' h h' _ touch touch' figures fwd =>
      cases h.symm.trans hs
      cases h'.symm.trans hs'
      refine iff_of_true ⟨?_, fun payload hp => ?_⟩ fun payload hp => ?_
      · rw [soloBody_json touch.body hv, soloBody_json touch'.body hv', figures]
      · cases fwd.symm.trans hp
      · cases fwd.symm.trans hp
  | passed a a' u₀ concrete payload payload' c est h h' hm hm' touch figures messages _ hchain
      fwd =>
      have hserve := h.symm.trans hs
      have hserve' := h'.symm.trans hs'
      have hrec : u₀.recorded = false := touch.recorded
      have hfin : u₀.finalized = false := touch.finalized
      have hnil : u₀.figures = [] := figures
      have hrestore : g.processResponse text c =
          (StreamRestore.new c.vault c.scope g.policy).restore text :=
        processResponse_eq_restore (fun hoff => chainOf_off (hmode.trans hoff) hchain) text
      -- the stream
      have hstreamed : t.figures = a.accounts ((estimateUsage (promptText payload) []).1,
          (estimateUsage [] (g.processResponse text c)).2, "estimated") := by
        obtain ⟨items', hitems, rfl, rfl⟩ | ⟨failure, -, hfailure, -⟩ := solo_streamResponse hserve
        · cases (hstream payload).symm.trans hitems
          have hcells := @usage_drained { a with requestText := promptText payload }
            (StreamRestore.new c.vault c.scope g.policy) items (hvault c hchain) rfl husages
          rw [htexts, ← hrestore] at hcells
          rw [soloBody_sse hv hrec hfin touch.tasks]
          change u₀.figures ++ Accountant.accounts _ (Accountant.usage _ (drained _ items)) = _
          rw [hcells, hnil]
          rfl
        · cases (hstream payload).symm.trans hfailure
      -- the completion
      have hcompleted : t'.figures = a'.accounts (0,
          (estimateUsage [] (g.processResponse text c)).2, "estimated") := by
        obtain ⟨tagged, htag, rfl, hbody, hfig⟩ := solo_chatResponse (hchat payload') hserve'
        have hcontents : contents (restoreFirst g c tagged) = [some (g.processResponse text c)] := by
          rw [contents_restoreFirst, contents_tagRouted htag, htext]
        have hnone : upstreamUsage ((restoreFirst g c tagged).get? "usage") = none := by
          rw [usage_restoreFirst, usage_tagRouted htag, husage]
        rw [soloBody_json (hbody.trans touch.body) hv', hfig hfin, hnil,
          completionUsage_eq hcontents hnone, List.nil_append]
      constructor
      · intro hagree payload₁ hfwd
        cases fwd.symm.trans hfwd
        have hsame := hagree.same
        rw [hstreamed, hcompleted] at hsame
        exact (accounts_eq_iff (hm.trans hm'.symm)).mp hsame
      · intro hzero
        have hprompt := hzero payload fwd
        refine ⟨?_, fun payload₁ hfwd f hf => ?_⟩
        · rw [hstreamed, hcompleted, hprompt]
          exact (accounts_eq_iff (hm.trans hm'.symm)).mpr rfl
        · cases fwd.symm.trans hfwd
          rw [hprompt]
          rw [hstreamed, hcompleted, hprompt] at hf
          rcases List.mem_append.mp hf with hf | hf
          · exact mem_accounts hf
          · exact mem_accounts hf

/-- An answer in two chunks, or in one piece. -/
def answeringOracle : Oracle
  | .resolve m _ => some (.ok ("p", m))
  | .inspect payload clientId => Inspectors.processRequestWithClient ⟨"off", "high", "off"⟩
      Inspectors.sampleEngine Dlp.insertionOrder payload (some clientId) []
  | .admitReq .. => some (.ok ⟨"r", "c", "p", "m", 0, 1⟩)
  | .chat _ => some (.ok (sampleCompletion ["Hello!!!".toList]))
  | .chatStream _ => some (.ok [Dlp.choiceChunk 0 "Hel", Dlp.choiceChunk 0 "lo!!!"])
  | .settle .. | .record .. | .recordTokensToday .. | .nextItem | .send _ => some ()
  | _ => none

/-- One message with this content. -/
def promptRequest (content : String) : ChatCompletionRequest :=
  { sampleRequest false with messages := [⟨"user".toList, some content.toList, none, none⟩] }

theorem answeringOracle_vault (content : String) : ∀ chain, chainOf ⟨"off", "high", "off"⟩
    Inspectors.sampleEngine Dlp.insertionOrder [] "c" (promptRequest content) = some chain →
      chain.vault.WellFormed := by
  intro chain hchain
  rw [chainOf_off rfl hchain]
  exact ⟨List.nodup_nil, nofun, nofun, nofun, nofun⟩

theorem answeringOracle_usages : ∀ chunk,
    .ok chunk ∈ [Dlp.choiceChunk 0 "Hel", Dlp.choiceChunk 0 "lo!!!"] →
      upstreamUsage (chunk.get? "usage") = none := by
  intro chunk hchunk
  simp only [Dlp.choiceChunk, List.mem_cons, Except.ok.injEq, List.not_mem_nil, or_false] at hchunk
  rcases hchunk with rfl | rfl
  · rfl
  · rfl

/-- The two runs of a request. -/
def answered (content : String) (stream : Bool) : Option (Reply × State) :=
  served sampleGateway "r" "c" { promptRequest content with stream := stream } answeringOracle

theorem accounting_agrees_short : ∃ reply reply' t t',
    answered "hi" true = some (reply, t) ∧ answered "hi" false = some (reply', t') ∧
      Agree answeringOracle sampleGateway "r" "c" (promptRequest "hi") t t' := by
  have hrun : ∃ x, answered "hi" true = some x := ⟨_, rfl⟩
  have hrun' : ∃ x, answered "hi" false = some x := ⟨_, rfl⟩
  obtain ⟨⟨reply, t⟩, hrun⟩ := hrun
  obtain ⟨⟨reply', t'⟩, hrun'⟩ := hrun'
  refine ⟨reply, reply', t, t', hrun, hrun', ?_⟩
  refine (@accounting_agrees_iff answeringOracle ⟨"off", "high", "off"⟩ Inspectors.sampleEngine
    Dlp.insertionOrder [] sampleGateway "r" "c" (promptRequest "hi") _ _ _ reply reply' t t'
    (fun _ _ => rfl) rfl (answeringOracle_vault "hi") (fun _ => rfl) (fun _ => rfl) rfl rfl rfl
    answeringOracle_usages hrun hrun').mpr fun payload hfwd => ?_
  cases hfwd
  decide

/-- A longer prompt costs nothing unless the answer is streamed. -/
theorem completion_without_prompt :
    ¬ ∀ (o : Oracle) (cfg : Inspectors.Config) (e : Inspectors.Engine) (ord : Dlp.VaultOrder)
      (draws : List (UInt64 × UInt64)) (g : Gateway) (requestId clientId : String)
      (body : ChatCompletionRequest) (completion : Json) (items : List Item) (text : Text)
      (reply reply' : Reply) (t t' : State), Inspects o cfg e ord draws → cfg.dlpMode = g.dlpMode →
      (∀ chain, chainOf cfg e ord draws clientId body = some chain → chain.vault.WellFormed) →
      (∀ payload, o (.chat payload) = some (.ok completion)) →
      (∀ payload, o (.chatStream payload) = some (.ok items)) →
      contents completion = [some text] → ((fed items).map Prod.snd).flatten = text →
      upstreamUsage (completion.get? "usage") = none →
      (∀ chunk, .ok chunk ∈ items → upstreamUsage (chunk.get? "usage") = none) →
      served g requestId clientId { body with stream := true } o = some (reply, t) →
      served g requestId clientId { body with stream := false } o = some (reply', t') →
      Agree o g requestId clientId body t t' := by
  intro h
  have hrun : ∃ reply t, answered "a longer prompt" true = some (reply, t) ∧
      t.figures = [⟨3, 2, none⟩, ⟨3, 2, some "estimated"⟩] := ⟨_, _, rfl, rfl⟩
  have hrun' : ∃ reply t, answered "a longer prompt" false = some (reply, t) ∧
      t.figures = [⟨0, 2, none⟩, ⟨0, 2, some "estimated"⟩] := ⟨_, _, rfl, rfl⟩
  obtain ⟨reply, t, hrun, hfigures⟩ := hrun
  obtain ⟨reply', t', hrun', hfigures'⟩ := hrun'
  have hagree := h answeringOracle ⟨"off", "high", "off"⟩ Inspectors.sampleEngine
    Dlp.insertionOrder [] sampleGateway "r" "c" (promptRequest "a longer prompt") _ _ _ reply reply'
    t t' (fun _ _ => rfl) rfl (answeringOracle_vault "a longer prompt") (fun _ => rfl) (fun _ => rfl)
    rfl rfl rfl answeringOracle_usages hrun hrun'
  have hsame := hagree.same
  rw [hfigures, hfigures'] at hsame
  exact absurd hsame (by decide)

end Chat

end FirewallLLM
