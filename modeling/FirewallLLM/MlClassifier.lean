import FirewallLLM.InspectorChain
import FirewallLLM.Utf8

/-! # The classifier of the injection inspector

`OnnxClassifier::predict` of `inspectors/ml.rs`, the scan of `MlInjectionInspector`, and the
chain with it.  The tokenizer, the model and the `f32` arithmetic of the softmax are parameters;
`OnnxClassifier.Total` is what is asked of them.  A panic is `none`, and one in the classifier
takes the handler down with it.

`predict` hands at most 4096 bytes to the tokenizer, and slices the text there. -/

namespace FirewallLLM.Inspectors

open Dlp (Text VaultOrder)
open Utf8 (sliceTo)

/-- The arithmetic of `f32`. -/
structure FloatOps (F : Type) where
  zero : F
  negInfinity : F
  max : F → F → F
  sub : F → F → F
  div : F → F → F
  exp : F → F
  sum : List F → F
  isZero : F → Bool
  partialCmp : F → F → Option Ordering
  lt : F → F → Bool
  /-- Comparison with the tenths of the severities. -/
  geTenths : F → ℕ → Bool

/-- `OnnxClassifier`: the ids of a text, the logits of ids, and the names of the classes. -/
structure OnnxClassifier (F : Type) where
  ops : FloatOps F
  encode : Text → Option (List ℕ)
  run : List ℕ → Option (List F)
  id2label : ℕ → Option String

/-- `Iterator::max_by`, where the comparison may panic. -/
def maxBy {α : Type} (compare : α → α → Option Ordering) : List α → Option (Option α)
  | [] => some none
  | a :: as => (as.foldlM (fun best x =>
      (compare best x).map (fun o => if o = .gt then best else x)) a).map some

namespace OnnxClassifier

variable {F : Type} (c : OnnxClassifier F)

def benign : String × F := ("benign", c.ops.zero)

/-- The exponentials of the logits. -/
def exps (logits : List F) : List F :=
  logits.map (fun x => c.ops.exp (c.ops.sub x (logits.foldl c.ops.max c.ops.negInfinity)))

/-- The probabilities. -/
def probs (logits : List F) : List F :=
  (c.exps logits).map (fun x => c.ops.div x (c.ops.sum (c.exps logits)))

/-- The class of the logits and its probability. -/
def classify (logits : List F) : Option (String × F) :=
  if c.ops.isZero (c.ops.sum (c.exps logits)) then some c.benign
  else do
    let best ← maxBy (fun a b => c.ops.partialCmp a.1 b.1) (c.probs logits).zipIdx
    let best := (best.map Prod.snd).getD 0
    let conf ← (c.probs logits)[best]?
    pure ((c.id2label best).getD (toString best), conf)

/-- `predict` -/
def predict (text : Text) : Option (String × F) := do
  let truncated ← sliceTo text (min (Utf8.byteLen text) 4096)
  match c.encode truncated with
  | none => pure c.benign
  | some ids =>
      if ids = [] then pure c.benign
      else
        match c.run (ids.take 512) with
        | none => pure c.benign
        | some logits => c.classify logits

/-- `MlInjectionInspector::scan` -/
def scan (threshold : F) (text : Text) : Option (Option Finding) :=
  (c.predict text).map (fun (label, conf) =>
    if label = "benign" ∨ c.ops.lt conf threshold then none
    else some ("ml:injection",
      if c.ops.geTenths conf 9 then "critical" else if c.ops.geTenths conf 8 then "high"
      else if c.ops.geTenths conf 7 then "medium" else "low"))

/-- The probabilities of the model can be compared, and no logits have no probabilities. -/
structure Total : Prop where
  comparable : ∀ ids logits, c.run ids = some logits →
    ∀ x ∈ c.probs logits, ∀ y ∈ c.probs logits, (c.ops.partialCmp x y).isSome
  sum_nil : c.ops.isZero (c.ops.sum []) = true

end OnnxClassifier

/-! ### The chain -/

/-- The contents that are scanned. -/
def contents (payload : Json) : List Text := ((messagesOf payload).getD []).flatMap contentTexts

/-- `process_request_with_client` with a classifier that may panic. -/
def processRequestWithMl (cfg : Config) (e : Engine) (ml : Text → Option (Option Finding))
    (ord : VaultOrder) (payload : Json) (clientId : Option String)
    (draws : List (UInt64 × UInt64)) : Option (Option Outcome) :=
  let chain := { e with ml := some (fun text => (ml text).getD none) }
  if cfg.injectionMode ≠ "off" then
    ((contents payload).mapM ml).map (fun _ =>
      processRequestWithClient cfg chain ord payload clientId draws)
  else some (processRequestWithClient cfg chain ord payload clientId draws)

/-! ### Where the text can be cut -/

/-- The text is short, or its first 4096 bytes are whole characters. -/
def Cuttable (text : Text) : Prop :=
  Utf8.byteLen text ≤ 4096 ∨ ∃ head tail, text = head ++ tail ∧ Utf8.byteLen head = 4096

theorem cuttable_iff (text : Text) :
    (sliceTo text (min (Utf8.byteLen text) 4096)).isSome ↔ Cuttable text := by
  unfold Cuttable
  by_cases hlen : Utf8.byteLen text ≤ 4096
  · rw [min_eq_left hlen, Utf8.sliceTo_byteLen]
    exact iff_of_true rfl (.inl hlen)
  · rw [min_eq_right (not_le.mp hlen).le, Utf8.isSome_sliceTo_iff, or_iff_right hlen]
    constructor
    · rintro ⟨head, ⟨tail, rfl⟩, hhead⟩
      exact ⟨head, tail, rfl, hhead⟩
    · rintro ⟨head, tail, rfl, hhead⟩
      exact ⟨head, List.prefix_append head tail, hhead⟩

/-! ### Panics -/

section Panics

variable {F : Type} {c : OnnxClassifier F}

theorem maxBy_eq_some {α : Type} {compare : α → α → Option Ordering} {l : List α}
    (h : ∀ x ∈ l, ∀ y ∈ l, (compare x y).isSome) :
    ∃ best, maxBy compare l = some best ∧ (∀ x, best = some x → x ∈ l) ∧ (best = none → l = []) := by
  cases l with
  | nil => exact ⟨none, rfl, by simp, fun _ => rfl⟩
  | cons a as =>
      have hfold : ∀ (rest : List α) (best : α), best ∈ a :: as → (∀ x ∈ rest, x ∈ a :: as) →
          ∃ x ∈ a :: as, rest.foldlM (fun best x =>
            (compare best x).map (fun o => if o = .gt then best else x)) best = some x := by
        intro rest
        induction rest with
        | nil => exact fun best hbest _ => ⟨best, hbest, rfl⟩
        | cons x rest ih =>
            intro best hbest hrest
            obtain ⟨hx, hrest⟩ := List.forall_mem_cons.mp hrest
            obtain ⟨o, ho⟩ := Option.isSome_iff_exists.mp (h best hbest x hx)
            have hnext : (if o = .gt then best else x) ∈ a :: as := by split_ifs <;> assumption
            rw [List.foldlM_cons, ho]
            exact ih _ hnext hrest
      obtain ⟨x, hx, hfold⟩ := hfold as a List.mem_cons_self (fun x hx => List.mem_cons_of_mem a hx)
      refine ⟨some x, by rw [maxBy, hfold]; rfl, ?_, by simp⟩
      rintro y ⟨⟩
      exact hx

theorem classify_isSome (hc : c.Total) {ids : List ℕ} {logits : List F}
    (h : c.run ids = some logits) : (c.classify logits).isSome := by
  unfold OnnxClassifier.classify
  split_ifs with hzero
  · rfl
  · have hcompare : ∀ a ∈ (c.probs logits).zipIdx, ∀ b ∈ (c.probs logits).zipIdx,
        (c.ops.partialCmp a.1 b.1).isSome := fun a ha b hb =>
      hc.comparable ids logits h _ (List.fst_mem_of_mem_zipIdx ha) _
        (List.fst_mem_of_mem_zipIdx hb)
    obtain ⟨best, hbest, hmem, hnone⟩ := maxBy_eq_some hcompare
    have hlt : (best.map Prod.snd).getD 0 < (c.probs logits).length := by
      cases best with
      | none =>
          -- no logits would add up to zero
          have hempty : logits = [] := by
            simpa [OnnxClassifier.probs, OnnxClassifier.exps] using hnone rfl
          subst hempty
          exact absurd hc.sum_nil hzero
      | some x => exact List.snd_lt_of_mem_zipIdx (hmem x rfl)
    simp [hbest, List.getElem?_eq_getElem hlt]

/-- The tokenizer is reached when the text can be cut, and from there on nothing panics. -/
theorem predict_isSome_iff (hc : c.Total) (text : Text) :
    (c.predict text).isSome ↔ Cuttable text := by
  rw [← cuttable_iff, OnnxClassifier.predict]
  cases hcut : sliceTo text (min (Utf8.byteLen text) 4096) with
  | none => exact Iff.rfl
  | some truncated =>
      refine iff_of_true ?_ rfl
      rw [Option.bind_eq_bind, Option.bind_some]
      cases c.encode truncated with
      | none => rfl
      | some ids =>
          dsimp only
          split_ifs with hids
          · rfl
          · cases hrun : c.run (ids.take 512) with
            | none => rfl
            | some logits => exact classify_isSome hc hrun

theorem mapM_isSome_iff {α β : Type} {f : α → Option β} {l : List α} :
    (l.mapM f).isSome ↔ ∀ x ∈ l, (f x).isSome := by
  induction l with
  | nil => simp
  | cons a l ih =>
      rw [List.mapM_cons, List.forall_mem_cons, ← ih]
      cases f a with
      | none => simp
      | some b => cases l.mapM f <;> simp

/-- **A text reaches the tokenizer, and a request its verdict, exactly when the 4096th byte of
no text that is classified is in the middle of a character.** -/
theorem classified_iff (hc : c.Total) (threshold : F) (cfg : Config) (e : Engine)
    (ord : VaultOrder) (payload : Json) (clientId : Option String)
    (draws : List (UInt64 × UInt64)) :
    (∀ text, (c.predict text).isSome ↔ Cuttable text) ∧
    ((processRequestWithMl cfg e (c.scan threshold) ord payload clientId draws).isSome ↔
      cfg.injectionMode = "off" ∨ ∀ text ∈ contents payload, Cuttable text) := by
  refine ⟨predict_isSome_iff hc, ?_⟩
  unfold processRequestWithMl
  dsimp only
  by_cases hmode : cfg.injectionMode = "off"
  · rw [if_neg (not_not.mpr hmode)]
    exact iff_of_true rfl (.inl hmode)
  · rw [if_pos hmode, Option.isSome_map, mapM_isSome_iff, or_iff_right hmode]
    refine forall₂_congr fun text _ => ?_
    rw [OnnxClassifier.scan, Option.isSome_map, predict_isSome_iff hc]

end Panics

/-! ### A long text -/

section Example

/-- A classifier of two classes, of which the second one is always the more likely. -/
def sampleClassifier : OnnxClassifier ℤ where
  ops :=
    { zero := 0
      negInfinity := 0
      max := max
      sub := fun x y => x - y
      div := fun x y => 10 * x / y
      exp := fun x => x + 3
      sum := List.sum
      isZero := fun x => x = 0
      partialCmp := fun x y => some (compare x y)
      lt := fun x y => x < y
      geTenths := fun x n => n ≤ x }
  encode := fun text => some (text.map Char.toNat)
  run := fun _ => some [1, 2]
  id2label := fun n => if n = 0 then some "benign" else some "injection"

theorem sampleClassifier_total : sampleClassifier.Total := ⟨fun _ _ _ _ _ _ _ => rfl, rfl⟩

/-- The payload of one message. -/
def oneMessage (text : Text) : Json :=
  .obj [("messages", .arr [.obj [("role", .str "user".toList), ("content", .str text)]])]

theorem contents_oneMessage (text : Text) : contents (oneMessage text) = [text] := rfl

/-- `é` behind 4096 letters. -/
def wholeText : Text := List.replicate 4096 'a' ++ ['é']

/-- It is cut in front of the last letter. -/
theorem classified_sample :
    (sampleClassifier.predict wholeText).isSome ∧
    (processRequestWithMl ⟨"block", "high", "off"⟩ sampleEngine (sampleClassifier.scan 5)
      Dlp.insertionOrder (oneMessage wholeText) none []).isSome := by
  have hcut : Cuttable wholeText := .inr ⟨_, _, rfl, Utf8.byteLen_replicate ..⟩
  obtain ⟨htext, hrequest⟩ := classified_iff sampleClassifier_total 5 ⟨"block", "high", "off"⟩
    sampleEngine Dlp.insertionOrder (oneMessage wholeText) none []
  refine ⟨(htext wholeText).mpr hcut, hrequest.mpr (.inr ?_)⟩
  rw [contents_oneMessage]
  exact List.forall_mem_singleton.mpr hcut

/-- `é` behind 4095 letters. -/
def longText : Text := List.replicate 4095 'a' ++ ['é']

theorem longText_not_cuttable : ¬ Cuttable longText := by
  have hcut : sliceTo longText (4095 + 1) = none := by
    rw [longText, Utf8.sliceTo_replicate 'a' rfl]
    rfl
  have hlen : Utf8.byteLen longText = 4097 := by
    rw [longText, Utf8.byteLen_append, Utf8.byteLen_replicate]
    rfl
  rw [← cuttable_iff, hlen]
  simp [hcut]

/-- A letter of two bytes at the cut takes the handler down. -/
theorem classified_aborts :
    ¬ ∀ (F : Type) (c : OnnxClassifier F), c.Total → ∀ (threshold : F) (cfg : Config) (e : Engine)
      (ord : VaultOrder) (payload : Json) (clientId : Option String)
      (draws : List (UInt64 × UInt64)),
      (∀ text, (c.predict text).isSome) ∧
        (processRequestWithMl cfg e (c.scan threshold) ord payload clientId draws).isSome := by
  intro h
  obtain ⟨-, hrequest⟩ := h ℤ sampleClassifier sampleClassifier_total 0
    ⟨"block", "high", "off"⟩ sampleEngine Dlp.insertionOrder (oneMessage longText) none []
  unfold processRequestWithMl at hrequest
  dsimp only at hrequest
  rw [if_pos (by decide), Option.isSome_map, mapM_isSome_iff, contents_oneMessage,
    List.forall_mem_singleton, OnnxClassifier.scan, Option.isSome_map] at hrequest
  exact longText_not_cuttable ((predict_isSome_iff sampleClassifier_total _).mp hrequest)

end Example

end FirewallLLM.Inspectors
