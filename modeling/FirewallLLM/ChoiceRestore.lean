import FirewallLLM.ServedAnswer

/-! # Restoring a completion

The handler restores the content of the first choice of a completion and hands on the rest of it.
`choices_restored_iff`: every choice is restored and no token of the vault gets to the client
exactly when no token stands anywhere else in the completion. -/

namespace FirewallLLM

open Dlp (Text)

namespace Json

mutual

/-- The texts of a value: its strings and the names of its fields. -/
def texts : Json → List Text
  | str s => [s]
  | arr items => itemTexts items
  | obj fields => fieldTexts fields
  | _ => []

def itemTexts : List Json → List Text
  | [] => []
  | j :: items => texts j ++ itemTexts items

def fieldTexts : List (String × Json) → List Text
  | [] => []
  | (name, j) :: fields => name.toList :: (texts j ++ fieldTexts fields)

end

variable {key : String} {j v w : Json} {text : Text}

theorem mem_texts_of_get? (h : j.get? key = some v) (ht : text ∈ v.texts) : text ∈ j.texts := by
  cases j with
  | obj fields =>
      obtain ⟨⟨name, w⟩, he, rfl⟩ := Option.map_eq_some_iff.mp h
      have hmem := List.mem_of_find?_eq_some he
      clear h he
      rw [texts]
      induction fields with
      | nil => cases hmem
      | cons d fields ih =>
          obtain ⟨name', w'⟩ := d
          rw [fieldTexts, List.mem_cons, List.mem_append]
          rcases List.mem_cons.mp hmem with heq | hmem
          · obtain ⟨rfl, rfl⟩ := Prod.mk.inj heq
            exact .inr (.inl ht)
          · exact .inr (.inr (ih hmem))
  | _ => cases h

theorem mem_itemTexts {items : List Json} :
    text ∈ itemTexts items ↔ ∃ j ∈ items, text ∈ j.texts := by
  induction items with
  | nil => simp [itemTexts]
  | cons j items ih => rw [itemTexts, List.mem_append, ih, List.exists_mem_cons_iff]

theorem mem_fieldTexts_map (fields : List (String × Json)) :
    text ∈ fieldTexts (fields.map (fun e => if e.1 = key then (key, v) else e)) ↔
      (∃ e ∈ fields, e.1 = key) ∧ text ∈ v.texts ∨
        text ∈ fieldTexts (fields.map (fun e => if e.1 = key then (key, null) else e)) := by
  induction fields with
  | nil => simp [fieldTexts]
  | cons e fields ih =>
      obtain ⟨name, w⟩ := e
      simp only [List.map_cons, List.exists_mem_cons_iff]
      by_cases hname : name = key
      · simp only [hname, if_true, fieldTexts, texts, List.mem_cons, List.mem_append, ih,
          List.not_mem_nil, false_or, true_or, true_and]
        tauto
      · simp only [hname, if_false, fieldTexts, List.mem_cons, List.mem_append, ih, false_or]
        rw [or_left_comm (a := text ∈ w.texts), or_left_comm]

theorem mem_texts_set (h : j.get? key = some w) :
    text ∈ (j.set key v).texts ↔ text ∈ v.texts ∨ text ∈ (j.set key .null).texts := by
  cases j with
  | obj fields =>
      obtain ⟨e, he, -⟩ := Option.map_eq_some_iff.mp h
      have hkey : e.1 = key := by simpa using List.find?_some he
      have hmem := List.mem_of_find?_eq_some he
      have hany : fields.any (fun e => e.1 = key) = true :=
        List.any_eq_true.mpr ⟨e, hmem, by simpa using hkey⟩
      simp only [set, hany, if_true, texts]
      rw [mem_fieldTexts_map]
      have hexists : ∃ e ∈ fields, e.1 = key := ⟨e, hmem, hkey⟩
      simp only [hexists, true_and]
  | _ => cases h

theorem mem_texts_modify {f g : Json → Json} {P : Prop} (h : j.get? key = some w)
    (hfg : text ∈ (f w).texts ↔ P ∨ text ∈ (g w).texts) :
    text ∈ (j.modify key f).texts ↔ P ∨ text ∈ (j.modify key g).texts := by
  unfold modify
  rw [h]
  dsimp only
  rw [mem_texts_set h, hfg, @mem_texts_set _ _ (g w) _ _ h, or_assoc]

end Json

namespace Chat

open Inspectors (DlpState textField)

/-- The contents of the choices of a completion; `none` where there is no string. -/
def contents (completion : Json) : List (Option Text) :=
  (completionChoices completion).map choiceContent

/-- The answer `out` to a completion has every choice restored: each content is what
`process_response` makes of it, and no token of the vault is left in any text of the body. -/
structure Restored (g : Gateway) (chain : DlpState) (completion out : Json) : Prop where
  contents : contents out =
    (contents completion).map (Option.map (fun text => g.processResponse text chain))
  tokens : ∀ token ∈ chain.vault.map Prod.fst, ∀ text ∈ out.texts, ¬ token <:+: text

/-- The completion with another value as the content of its first choice. -/
def putFirst (v completion : Json) : Json :=
  completion.modify "choices" (fun choices => match choices with
    | .arr (choice :: rest) => .arr (choice.modify "message" (fun m => m.set "content" v) :: rest)
    | choices => choices)

/-- The texts of a completion besides the content of its first choice. -/
def otherTexts (completion : Json) : List Text :=
  match firstContent completion with
  | none => completion.texts
  | some _ => (putFirst .null completion).texts

/-! ### What the handler does to the choices -/

theorem contents_tagRouted {requested concrete : String} {completion tagged : Json}
    (h : tagRouted requested concrete completion = some tagged) :
    contents tagged = contents completion := by
  have hkey : "choices" ≠ "routed_from" := by decide
  unfold tagRouted at h
  split_ifs at h
  · cases completion with
    | null =>
        cases h
        rfl
    | obj fields =>
        cases h
        unfold contents completionChoices
        rw [Json.get?_set_of_ne hkey]
    | _ => cases h
  · cases h
    rfl

theorem choiceContent_modify {choice : Json} {content : Text}
    (h : choiceContent choice = some content) (text : Text) :
    choiceContent (choice.modify "message" (fun m => m.set "content" (.str text))) = some text := by
  obtain ⟨m, hm, hcontent⟩ := Option.bind_eq_some_iff.mp h
  obtain ⟨v, hv, -⟩ := Option.bind_eq_some_iff.mp hcontent
  unfold choiceContent
  rw [Json.get?_modify_self _ hm, Option.bind_some, textField, Json.get?_set_self hv]
  rfl

theorem completionChoices_modify {completion choice : Json} {rest : List Json}
    (h : completionChoices completion = choice :: rest) (f : Json → Json) :
    completionChoices (completion.modify "choices" (fun choices => match choices with
      | .arr (choice :: rest) => .arr (f choice :: rest)
      | choices => choices)) = f choice :: rest := by
  unfold completionChoices at h ⊢
  cases hget : completion.get? "choices" with
  | none => simp [hget] at h
  | some v =>
      rw [hget] at h
      rw [Json.get?_modify_self _ hget]
      cases v with
      | arr items =>
          simp only [Option.bind_some, Json.asArr?, Option.getD_some] at h
          rw [h]
          rfl
      | _ => simp [Json.asArr?] at h

/-- Only the first content changes. -/
theorem contents_restoreFirst (g : Gateway) (chain : DlpState) (completion : Json) :
    contents (restoreFirst g chain completion) = match contents completion with
      | some content :: rest => some (g.processResponse content chain) :: rest
      | rest => rest := by
  unfold restoreFirst firstContent contents
  cases hc : completionChoices completion with
  | nil => simp [hc]
  | cons choice rest =>
      rw [List.head?_cons, Option.bind_some, List.map_cons]
      cases hcontent : choiceContent choice with
      | none => simp [hc, hcontent]
      | some content =>
          have hmodify := completionChoices_modify hc (fun choice => choice.modify "message"
            (fun m => m.set "content" (.str (g.processResponse content chain))))
          refine (congrArg (List.map choiceContent) hmodify).trans ?_
          rw [List.map_cons, choiceContent_modify hcontent]

/-! ### Every choice -/

/-- What has no token of the vault needs no restoring. -/
theorem processResponse_eq_self {g : Gateway} {chain : DlpState} {text : Text}
    (h : ∀ e ∈ chain.vault, ¬ e.1 <:+: text) : g.processResponse text chain = text := by
  unfold Gateway.processResponse
  split_ifs
  · rfl
  · unfold Dlp.deanonymize
    generalize chain.vault = vault at h
    induction vault with
    | nil => rfl
    | cons e vault ih =>
        obtain ⟨token, val⟩ := e
        obtain ⟨hhead, hrest⟩ := List.forall_mem_cons.mp h
        rw [List.foldl_cons]
        dsimp only
        rw [Substitution.replaceAll_eq_self hhead]
        exact ih hrest

theorem mem_texts_of_contents {completion : Json} {content : Text}
    (h : some content ∈ contents completion) : content ∈ completion.texts := by
  obtain ⟨choice, hchoice, hcontent⟩ := List.mem_map.mp h
  obtain ⟨m, hm, hcontent⟩ := Option.bind_eq_some_iff.mp hcontent
  obtain ⟨v, hv, hstr⟩ := Option.bind_eq_some_iff.mp hcontent
  unfold completionChoices at hchoice
  cases hchoices : completion.get? "choices" with
  | none => simp [hchoices] at hchoice
  | some choices =>
      rw [hchoices] at hchoice
      refine Json.mem_texts_of_get? hchoices ?_
      cases choices with
      | arr items =>
          refine Json.mem_itemTexts.mpr ⟨choice, hchoice, ?_⟩
          refine Json.mem_texts_of_get? hm (Json.mem_texts_of_get? hv ?_)
          cases v with
          | str t =>
              obtain rfl := Option.some.inj hstr
              exact List.mem_singleton_self t
          | _ => cases hstr
      | _ => simp [Json.asArr?] at hchoice

theorem firstContent_eq (completion : Json) :
    firstContent completion = (contents completion).head?.join := by
  unfold firstContent contents
  cases completionChoices completion <;> rfl

theorem contents_putFirst (v completion : Json) :
    (contents (putFirst v completion)).tail = (contents completion).tail := by
  cases hc : completionChoices completion with
  | nil =>
      have hsame : ∀ j : Json, (contents j).tail = ((completionChoices j).tail).map choiceContent :=
        fun j => List.map_tail.symm
      rw [hsame, hsame, hc]
      unfold putFirst completionChoices at *
      cases hget : completion.get? "choices" with
      | none => simp [Json.modify, hget]
      | some choices =>
          rw [Json.get?_modify_self _ hget]
          rw [hget] at hc
          cases choices with
          | arr items =>
              simp only [Option.bind_some, Json.asArr?, Option.getD_some] at hc
              rw [hc]
              rfl
          | _ => rfl
  | cons choice rest =>
      have hmodify := completionChoices_modify hc
        (fun choice => choice.modify "message" (fun m => m.set "content" v))
      change List.tail (List.map choiceContent (completionChoices (completion.modify _ _))) = _
      rw [hmodify, contents, hc]
      rfl

/-- The contents of the other choices are other texts. -/
theorem mem_otherTexts_of_tail {completion : Json} {content : Text}
    (h : some content ∈ (contents completion).tail) : content ∈ otherTexts completion := by
  unfold otherTexts
  cases firstContent completion with
  | none => exact mem_texts_of_contents (List.mem_of_mem_tail h)
  | some _ =>
      rw [← contents_putFirst .null] at h
      exact mem_texts_of_contents (List.mem_of_mem_tail h)

theorem mem_texts_putFirst {completion : Json} {content : Text}
    (hfirst : firstContent completion = some content) (v : Json) {text : Text} :
    text ∈ (putFirst v completion).texts ↔
      text ∈ v.texts ∨ text ∈ (putFirst .null completion).texts := by
  obtain ⟨choice, hchoice, hcontent⟩ := Option.bind_eq_some_iff.mp hfirst
  obtain ⟨m, hm, hcontent⟩ := Option.bind_eq_some_iff.mp hcontent
  obtain ⟨w, hw, -⟩ := Option.bind_eq_some_iff.mp hcontent
  unfold completionChoices at hchoice
  cases hchoices : completion.get? "choices" with
  | none => simp [hchoices] at hchoice
  | some choices =>
      rw [hchoices] at hchoice
      cases choices with
      | arr items =>
          cases items with
          | nil => cases hchoice
          | cons choice' rest =>
              obtain rfl := Option.some.inj hchoice
              refine Json.mem_texts_modify hchoices ?_
              have hmessage : text ∈ (choice'.modify "message" (fun m => m.set "content" v)).texts ↔
                  text ∈ v.texts ∨
                    text ∈ (choice'.modify "message" (fun m => m.set "content" .null)).texts :=
                Json.mem_texts_modify hm (Json.mem_texts_set hw)
              simp only [Json.texts, Json.itemTexts, List.mem_append, hmessage, or_assoc]
      | _ => simp [Json.asArr?] at hchoice

/-- The texts of a restored completion: the restored content, and the others. -/
theorem mem_texts_restoreFirst {g : Gateway} {chain : DlpState} {completion : Json} {text : Text} :
    text ∈ (restoreFirst g chain completion).texts ↔
      (∃ content, firstContent completion = some content ∧
        text = g.processResponse content chain) ∨ text ∈ otherTexts completion := by
  cases hfirst : firstContent completion with
  | none => simp [restoreFirst, otherTexts, hfirst]
  | some content =>
      have hrestore : restoreFirst g chain completion =
          putFirst (.str (g.processResponse content chain)) completion := by
        rw [restoreFirst, hfirst]
        rfl
      have hother : otherTexts completion = (putFirst .null completion).texts := by
        rw [otherTexts, hfirst]
      rw [hrestore, hother, mem_texts_putFirst hfirst, Json.texts, List.mem_singleton]
      simp

/-- **A completion is restored exactly when no token stands in its other texts**, nor in what
`process_response` makes of the first content. -/
theorem restored_iff {g : Gateway} {chain : DlpState} {completion tagged : Json}
    (htagged : contents tagged = contents completion) :
    Restored g chain completion (restoreFirst g chain tagged) ↔
      ∀ token ∈ chain.vault.map Prod.fst,
        (∀ text ∈ otherTexts tagged, ¬ token <:+: text) ∧
          ∀ content, firstContent completion = some content →
            ¬ token <:+: g.processResponse content chain := by
  have hfirst : firstContent tagged = firstContent completion := by
    rw [firstContent_eq, firstContent_eq, htagged]
  constructor
  · intro hr token htoken
    refine ⟨fun text ht => ?_, fun content hcontent => ?_⟩
    · exact hr.tokens token htoken text (mem_texts_restoreFirst.mpr (.inr ht))
    · refine hr.tokens token htoken _ (mem_texts_restoreFirst.mpr (.inl ⟨content, ?_, rfl⟩))
      rw [hfirst, hcontent]
  · intro hall
    refine ⟨?_, fun token htoken text ht => ?_⟩
    · -- the contents of the other choices need no restoring
      have hrest : ∀ content, some content ∈ (contents completion).tail →
          g.processResponse content chain = content := by
        intro content hcontent
        rw [← htagged] at hcontent
        exact processResponse_eq_self fun e he =>
          (hall e.1 (List.mem_map_of_mem he)).1 content (mem_otherTexts_of_tail hcontent)
      rw [contents_restoreFirst, htagged]
      have hself : ∀ rest : List (Option Text), (∀ content, some content ∈ rest →
          g.processResponse content chain = content) →
            rest = rest.map (Option.map (fun text => g.processResponse text chain)) := by
        intro rest h
        refine (List.map_id rest).symm.trans (List.map_congr_left fun x hx => ?_)
        cases x with
        | none => rfl
        | some content => exact congrArg some (h content hx).symm
      rcases hc : contents completion with _ | ⟨_ | content, rest⟩
      · rfl
      · rw [hc] at hrest
        exact congrArg (none :: ·) (hself rest hrest)
      · rw [hc] at hrest
        exact congrArg (some _ :: ·) (hself rest hrest)
    · rcases mem_texts_restoreFirst.mp ht with ⟨content, hcontent, rfl⟩ | hother
      · exact (hall token htoken).2 content (hfirst ▸ hcontent)
      · exact (hall token htoken).1 text hother

theorem solo_chatCompletions {o : Oracle} {cfg : Inspectors.Config} {e : Inspectors.Engine}
    {ord : Dlp.VaultOrder} {draws : List (UInt64 × UInt64)}
    (hinspect : Inspects o cfg e ord draws) {completion : Json}
    (hchat : ∀ payload, o (.chat payload) = some (.ok completion)) {g : Gateway}
    {requestId clientId : String} {body : ChatCompletionRequest} {s t : State} {out : Json}
    (hrun : solo o (chatCompletions g requestId clientId body) s = some (.json 200 out, t)) :
    ∃ concrete chain tagged, servedModel o body.model clientId = some concrete ∧
      chainOf cfg e ord draws clientId body = some chain ∧
      tagRouted body.model concrete completion = some tagged ∧
      out = restoreFirst g chain tagged := by
  cases alike_chatCompletions hinspect g requestId clientId body body.stream body.stream s with
  | stuck h => cases h.symm.trans hrun
  | refused err t₁ t₂ h _ hstatus =>
      have hreply := congrArg Prod.fst (Option.some.inj (h.symm.trans hrun))
      exact absurd (Reply.json.inj hreply).1 hstatus
  | passed a a' u concrete payload payload' c est h _ _ _ _ _ _ hroute hchain =>
      have hserve := h.symm.trans hrun
      unfold serve at hserve
      split_ifs at hserve with hstream
      · obtain ⟨items, -, hreply, -⟩ | ⟨-, err, -, hreply, hstatus⟩ :=
          solo_streamResponse hserve
        · cases hreply
        · exact absurd (Reply.json.inj hreply.symm).1 hstatus
      · obtain ⟨tagged, htag, hreply, -⟩ := solo_chatResponse (hchat payload) hserve
        cases hreply
        exact ⟨concrete, c, tagged, hroute, hchain, htag, rfl⟩

/-- **Every choice is restored and no token gets to the client exactly when the vault's tokens are
nowhere in the completion but in the content of the first choice**, and `process_response` leaves
none there.  The completion is taken with the `routed_from` of the router. -/
theorem choices_restored_iff {o : Oracle} {cfg : Inspectors.Config} {e : Inspectors.Engine}
    {ord : Dlp.VaultOrder} {draws : List (UInt64 × UInt64)}
    (hinspect : Inspects o cfg e ord draws) {completion : Json}
    (hchat : ∀ payload, o (.chat payload) = some (.ok completion)) (g : Gateway)
    (requestId clientId : String) (body : ChatCompletionRequest) (s t : State) (out : Json)
    (hrun : solo o (chatCompletions g requestId clientId body) s = some (.json 200 out, t)) :
    ∃ concrete chain tagged, servedModel o body.model clientId = some concrete ∧
      chainOf cfg e ord draws clientId body = some chain ∧
      tagRouted body.model concrete completion = some tagged ∧
      (Restored g chain completion out ↔
        ∀ token ∈ chain.vault.map Prod.fst,
          (∀ text ∈ otherTexts tagged, ¬ token <:+: text) ∧
            ∀ content, firstContent completion = some content →
              ¬ token <:+: g.processResponse content chain) := by
  obtain ⟨concrete, chain, tagged, hmodel, hchain, htag, rfl⟩ :=
    solo_chatCompletions hinspect hchat hrun
  exact ⟨concrete, chain, tagged, hmodel, hchain, htag, restored_iff (contents_tagRouted htag)⟩

/-- A completion with these contents. -/
def sampleCompletion (texts : List Text) : Json :=
  .obj [("choices", .arr (texts.map (fun text => .obj [("message", .obj [("content", .str text)])])))]

/-- Masking inspectors, and one answer of the provider. -/
def maskingOracle (completion : Json) : Oracle
  | .resolve m _ => some (.ok ("p", m))
  | .inspect payload clientId => Inspectors.processRequestWithClient ⟨"block", "high", "mask"⟩
      Inspectors.sampleEngine Dlp.insertionOrder payload (some clientId) [(171, 205)]
  | .admitReq .. => some (.ok ⟨"r", "c", "p", "m", 0, 1⟩)
  | .chat _ => some (.ok completion)
  | .settle .. | .record .. | .recordTokensToday .. => some ()
  | _ => none

/-- A message with an address. -/
def maskedRequest : ChatCompletionRequest :=
  { sampleRequest false with messages := [⟨"user".toList, some Dlp.sampleText, none, none⟩] }

def maskingGateway : Gateway := { sampleGateway with dlpMode := "mask" }

/-- The request against a provider that answers with these contents. -/
def sampleAnswer (texts : List Text) : Option (Reply × State) :=
  solo (maskingOracle (sampleCompletion texts)) (chatCompletions maskingGateway "r" "c" maskedRequest)
    (init maskingGateway "r" "c" maskedRequest)

theorem choices_restored_sample : ∃ chain, chainOf ⟨"block", "high", "mask"⟩
      Inspectors.sampleEngine Dlp.insertionOrder [(171, 205)] "c" maskedRequest = some chain ∧
    Restored maskingGateway chain (sampleCompletion [Dlp.sampleToken, "no".toList])
      (sampleCompletion ["ivan@mail.ru".toList, "no".toList]) := by
  have hrun : ∃ t, sampleAnswer [Dlp.sampleToken, "no".toList] =
      some (.json 200 (sampleCompletion ["ivan@mail.ru".toList, "no".toList]), t) := ⟨_, rfl⟩
  obtain ⟨t, hrun⟩ := hrun
  obtain ⟨concrete, chain, tagged, hmodel, hchain, htag, hiff⟩ := @choices_restored_iff _
    ⟨"block", "high", "mask"⟩ Inspectors.sampleEngine Dlp.insertionOrder [(171, 205)]
    (fun _ _ => rfl) _ (fun _ => rfl) maskingGateway "r" "c" maskedRequest _ t _ hrun
  cases hmodel
  cases hchain
  cases htag
  exact ⟨_, rfl, hiff.mpr (by decide)⟩

/-- The token in the second choice reaches the client. -/
theorem second_choice_not_restored :
    ¬ ∀ (o : Oracle) (cfg : Inspectors.Config) (e : Inspectors.Engine) (ord : Dlp.VaultOrder)
      (draws : List (UInt64 × UInt64)) (completion : Json) (g : Gateway)
      (requestId clientId : String) (body : ChatCompletionRequest) (s t : State) (out : Json)
      (chain : DlpState), Inspects o cfg e ord draws →
      (∀ payload, o (.chat payload) = some (.ok completion)) →
      solo o (chatCompletions g requestId clientId body) s = some (.json 200 out, t) →
      chainOf cfg e ord draws clientId body = some chain → Restored g chain completion out := by
  intro h
  have hrestored := h (maskingOracle (sampleCompletion ["no".toList, Dlp.sampleToken]))
    ⟨"block", "high", "mask"⟩ Inspectors.sampleEngine Dlp.insertionOrder [(171, 205)]
    (sampleCompletion ["no".toList, Dlp.sampleToken]) maskingGateway "r" "c" maskedRequest
    (init maskingGateway "r" "c" maskedRequest) _
    (sampleCompletion ["no".toList, Dlp.sampleToken]) _ (fun _ _ => rfl) (fun _ => rfl) rfl rfl
  have hsecond := congrArg (fun texts => texts[1]?) hrestored.contents
  have hne : some (some Dlp.sampleToken) ≠ some (some "ivan@mail.ru".toList) := by decide
  exact hne hsecond

end Chat

end FirewallLLM
