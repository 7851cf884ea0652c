import FirewallLLM.Accounting
import FirewallLLM.JsonText
import FirewallLLM.StreamEnds
import FirewallLLM.Wrapping

/-! # Reading the usage of the provider

Both gateways read `prompt_tokens` and `completion_tokens` of a usage object that is not empty,
and estimate where there is none.  The Rust gateway counts a member that is no unsigned word as
zero; the Python gateway applies `int` to it, which may raise.  What is estimated is the text that
a gateway has read from the answer, and they do not read the same: of a completion, the Rust
gateway restores the first choice and passes over contents that are null; of a stream that breaks
off, only the Rust gateway counts what was held back.

`usage_alike_iff`: when both charge the same figures, which are not negative, and charge the
marked estimate unless the object has a usable member, for completions and for streams. -/

namespace FirewallLLM.Usage

open Dlp (Text)
open JsonText (Doc)

/-! ### Documents in both languages -/

/-- A number of a document: an integer as it is written, or a float. -/
inductive Numeral where
  | int (negative : Bool) (n : ℕ)
  | float (digits : String) (x : Py.PyFloat)

/-- `serde_json`: an integer that fits no 64-bit word becomes a float, and so does minus zero. -/
def Numeral.rust : Numeral → Number
  | .int false n => if n < 2 ^ 64 then .posInt (UInt64.ofNat n) else .float (toString n)
  | .int true n =>
      if 0 < n ∧ n ≤ 2 ^ 63 then .negInt (Int64.ofInt (-n)) else .float ("-" ++ toString n)
  | .float digits _ => .float digits

/-- `json.loads`. -/
def Numeral.py : Numeral → Py.Value
  | .int false n => .int n
  | .int true n => .int (-n)
  | .float _ x => .float x

mutual

/-- A document as `serde_json` reads it. -/
def rust : Doc Numeral → Json
  | .null => .null
  | .bool b => .bool b
  | .num n => .num n.rust
  | .str s => .str s
  | .arr items => .arr (rustItems items)
  | .obj fields => .obj (rustFields fields)

def rustItems : List (Doc Numeral) → List Json
  | [] => []
  | d :: items => rust d :: rustItems items

def rustFields : List (Text × Doc Numeral) → List (String × Json)
  | [] => []
  | (key, d) :: fields => (String.ofList key, rust d) :: rustFields fields

end

mutual

/-- A document as `json.loads` reads it. -/
def py : Doc Numeral → Py.Value
  | .null => .none
  | .bool b => .bool b
  | .num n => n.py
  | .str s => .str s
  | .arr items => .list (pyItems items)
  | .obj fields => .dict (pyFields fields)

def pyItems : List (Doc Numeral) → List Py.Value
  | [] => []
  | d :: items => py d :: pyItems items

def pyFields : List (Text × Doc Numeral) → List (String × Py.Value)
  | [] => []
  | (key, d) :: fields => (String.ofList key, py d) :: pyFields fields

end

/-- A member of an object. -/
def member (fields : List (Text × Doc Numeral)) (key : String) : Option (Doc Numeral) :=
  (fields.find? (fun e => String.ofList e.1 = key)).map Prod.snd

theorem get?_rust (fields : List (Text × Doc Numeral)) (key : String) :
    (Json.obj (rustFields fields)).get? key = (member fields key).map rust := by
  unfold member
  induction fields with
  | nil => rfl
  | cons e fields ih =>
      by_cases hkey : String.ofList e.1 = key
      · simp [rustFields, Json.get?, hkey]
      · simpa [rustFields, Json.get?, hkey] using ih

theorem get?_py (fields : List (Text × Doc Numeral)) (key : String) :
    Py.Fields.get? (pyFields fields) key = (member fields key).map py := by
  unfold member Py.Fields.get?
  induction fields with
  | nil => rfl
  | cons e fields ih =>
      rw [pyFields, List.find?_cons, List.find?_cons]
      by_cases hkey : String.ofList e.1 = key
      · simp [hkey]
      · simpa [hkey] using ih

/-! ### What is charged -/

/-- The figures that reach the quotas: `as i64`. -/
def charged (r : UInt64 × UInt64 × String) : ℤ × ℤ × String :=
  (r.1.toInt64.toInt, r.2.1.toInt64.toInt, r.2.2)

/-- The text that the Rust gateway reads from a completion: the contents that are strings, the first
of them restored. -/
def rustText (g : Chat.Gateway) (chain : Inspectors.DlpState) (completion : Json) : Text :=
  Chat.joinLines ((Chat.completionChoices (Chat.restoreFirst g chain completion)).filterMap
    Chat.choiceContent)

/-- Its charge; the payload has been taken when it is estimated. -/
def rustCompletion (g : Chat.Gateway) (chain : Inspectors.DlpState) (completion : Json) :
    ℤ × ℤ × String :=
  charged (Chat.completionUsage (Chat.restoreFirst g chain completion))

/-- The text that the Python gateway reads from a completion: all contents, restored. -/
def pyText (ctx : Py.Ctx) (routedFrom : Option String) (completion : Py.Value) :
    Except Py.Exn Text := do
  let result ← Py.processResponse ctx completion
  let result ← match routedFrom with
    | some model => Py.setRouted result model
    | none => pure result
  Py.responseText result

/-- Its charge. -/
def pyCompletion (u : Py.Unicode) (ctx : Py.Ctx) (routedFrom : Option String)
    (payload : Py.Fields) (completion : Py.Value) : Except Py.Exn (ℤ × ℤ × String) :=
  (Py.readResult u ctx routedFrom payload completion).map
    (fun done => (done.prompt, done.completion, done.source))

/-- The items of a stream in the Rust gateway: the chunks, and what it broke off with. -/
def rustChunks (chunks : List (Doc Numeral)) (failure : Option (Text × Py.Exn)) :
    List Dlp.Item :=
  chunks.map (fun chunk => .ok (rust chunk)) ++ (failure.map (fun e => .error e.1)).toList

/-- The charge of a stream that has been read. -/
def rustStream (a : Chat.Accountant) (session : Dlp.StreamRestore) (items : List Dlp.Item) :
    ℤ × ℤ × String :=
  charged (a.usage (Chat.drained (Dlp.StreamState.new session) items))

/-- The stream in the Python gateway; `rest` is what the other operations answer. -/
def pyChunks (chunks : List (Doc Numeral)) (failure : Option (Text × Py.Exn))
    (rest : ℕ → (e : Py.Op) → Py.Res e) : Py.Upstream :=
  ⟨chunks.map py, failure.elim (.ok ()) (fun e => .error e.2), rest⟩

/-- The operations over a stream, with a record of the usages that are asked for. -/
def recording (w : Py.Upstream) :
    (e : Py.Op) → Py.Wire × List (Py.Value × Text × Text) →
      Py.Res e × Py.Wire × List (Py.Value × Text × Text)
  | .usageNumbers usage prompt text, (s, asked) =>
      ((w.answer (.usageNumbers usage prompt text) s).1,
        (w.answer (.usageNumbers usage prompt text) s).2, asked ++ [(usage, prompt, text)])
  | e, (s, asked) => ((w.answer e s).1, (w.answer e s).2, asked)

/-- The charges of the generator: what it asks for until it ends. -/
def pyStream (u : Py.Unicode) (c : Py.Caller) (payload : Py.Fields) (ctx : Py.Ctx)
    (rsv : Option Py.Reservation) (w : Py.Upstream) : List (Except Py.Exn (ℤ × ℤ × String)) :=
  (((Py.sse c payload ctx rsv).exec (recording w) (⟨0, 0, []⟩, [])).2.2).map
    (fun asked => Py.usageNumbers u asked.1 asked.2.1 asked.2.2)

/-- The members that are read. -/
def keys : List String := ["prompt_tokens", "completion_tokens"]

/-- A token count is an integer that is not negative. -/
def Usable (d : Doc Numeral) : Prop := ∃ n, d = .num (.int false n)

/-- The Python gateway charges once, and what the Rust gateway charges; the figures are not
negative, and where no member of the usage is usable they are the marked estimate. -/
structure Alike (fields : List (Text × Doc Numeral)) (r : ℤ × ℤ × String)
    (p : List (Except Py.Exn (ℤ × ℤ × String))) : Prop where
  same : p = [.ok r]
  nonneg : 0 ≤ r.1 ∧ 0 ≤ r.2.1
  marked : (∀ key ∈ keys, ∀ d, member fields key = some d → ¬ Usable d) → r.2.2 = "estimated"

/-- A member that both gateways count alike: a positive word, or what counts as zero. -/
def Readable (u : Py.Unicode) : Doc Numeral → Prop
  | .num (.int false n) => n < 2 ^ 63
  | .num (.int true n) => n = 0
  | .num (.float _ x) => Py.intOfFloat x = .ok 0
  | .bool b => b = false
  | .str s => Py.intOfStr u s = .ok 0
  | _ => False

/-! ### One member -/

/-- The figure of a member in the Rust gateway. -/
def figure (d : Option (Doc Numeral)) : UInt64 := ((d.map rust).bind Json.asU64?).getD 0

theorem toInt_figure_nat {n : ℕ} (hn : n < 2 ^ 64) :
    (figure (some (.num (.int false n)))).toInt64.toInt = Wrapping.wrap n := by
  have hfig : figure (some (.num (.int false n))) = UInt64.ofNat n := by
    unfold figure
    rw [Option.map_some, rust, Numeral.rust, if_pos hn]
    rfl
  rw [hfig, Wrapping.toInt_toInt64, UInt64.toNat_ofNat_of_lt' hn]

theorem figure_other {d : Doc Numeral} (h : ∀ n < 2 ^ 64, d ≠ .num (.int false n)) :
    figure (some d) = 0 := by
  unfold figure
  cases d with
  | num m =>
      rw [Option.map_some, rust]
      cases m with
      | int negative n =>
          cases negative with
          | false =>
              rw [Numeral.rust, if_neg (fun hn => h n hn rfl)]
              rfl
          | true =>
              rw [Numeral.rust]
              split_ifs <;> rfl
      | float digits x => rfl
  | _ => rfl

/-- A member counts alike, and not below zero, exactly if it is readable. -/
theorem toInt_eq_figure_iff (u : Py.Unicode) (d : Doc Numeral) :
    (Py.toInt u (py d) = .ok (figure (some d)).toInt64.toInt ∧
      0 ≤ (figure (some d)).toInt64.toInt) ↔ Readable u d := by
  have hzero : (0 : UInt64).toInt64.toInt = 0 := by decide
  cases d with
  | num m =>
      cases m with
      | int negative n =>
          cases negative with
          | false =>
              by_cases hn : n < 2 ^ 64
              · rw [toInt_figure_nat hn, Readable, py, Numeral.py, Py.toInt, Except.ok.injEq]
                constructor
                · rintro ⟨heq, -⟩
                  have hfits := Wrapping.wrap_eq_iff.mp heq.symm
                  have htop : (n : ℤ) < 2 ^ 63 := hfits.2
                  omega
                · intro hlt
                  have hfits : Wrapping.wrap (n : ℤ) = n :=
                    Wrapping.wrap_eq_iff.mpr ⟨by omega, by omega⟩
                  rw [hfits]
                  exact ⟨rfl, by omega⟩
              · have hother : ∀ k < 2 ^ 64,
                    Doc.num (Numeral.int false n) ≠ .num (.int false k) := by
                  rintro k hk heq
                  obtain ⟨-, rfl⟩ := Numeral.int.inj (Doc.num.inj heq)
                  exact hn hk
                rw [figure_other hother, hzero, Readable, py, Numeral.py, Py.toInt,
                  Except.ok.injEq]
                omega
          | true =>
              rw [figure_other (by simp), hzero, Readable, py, Numeral.py, Py.toInt,
                Except.ok.injEq]
              omega
      | float digits x =>
          rw [figure_other (by simp), hzero, Readable, py, Numeral.py, Py.toInt]
          simp
  | bool b =>
      rw [figure_other (by simp), hzero, Readable, py, Py.toInt]
      cases b <;> simp
  | str s =>
      rw [figure_other (by simp), hzero, Readable, py, Py.toInt]
      simp
  | null => simp [Readable, py, Py.toInt]
  | arr items => simp [Readable, py, Py.toInt]
  | obj fields => simp [Readable, py, Py.toInt]

/-! ### Objects -/

/-- Both members are read alike, and one of them is usable. -/
def Reads (u : Py.Unicode) (fields : List (Text × Doc Numeral)) : Prop :=
  (∀ key ∈ keys, ∀ d, member fields key = some d → Readable u d) ∧
    ∃ key ∈ keys, ∃ d, member fields key = some d ∧ Usable d

theorem usageField_rust (fields : List (Text × Doc Numeral)) (key : String) :
    Chat.usageField (.obj (rustFields fields)) key = figure (member fields key) := by
  rw [Chat.usageField, get?_rust]
  rfl

theorem charged_obj (e : Text × Doc Numeral) (fields : List (Text × Doc Numeral))
    (prompt text : Text) :
    charged (Chat.usageNumbers (some (.obj (rustFields (e :: fields)))) prompt text) =
      ((figure (member (e :: fields) "prompt_tokens")).toInt64.toInt,
        (figure (member (e :: fields) "completion_tokens")).toInt64.toInt, "upstream") := by
  rw [← usageField_rust, ← usageField_rust]
  rfl

theorem py_obj (u : Py.Unicode) (e : Text × Doc Numeral) (fields : List (Text × Doc Numeral))
    (prompt text : Text) :
    Py.usageNumbers u (.dict (pyFields (e :: fields))) prompt text = (do
      let p ← Py.toInt u (((member (e :: fields) "prompt_tokens").map py).getD (.int 0))
      let d ← Py.toInt u (((member (e :: fields) "completion_tokens").map py).getD (.int 0))
      pure (p, d, "upstream")) := by
  rw [← get?_py, ← get?_py]
  rfl

theorem member_iff (u : Py.Unicode) (m : Option (Doc Numeral)) :
    (Py.toInt u ((m.map py).getD (.int 0)) = .ok (figure m).toInt64.toInt ∧
      0 ≤ (figure m).toInt64.toInt) ↔ ∀ d, m = some d → Readable u d := by
  cases m with
  | none =>
      have hzero : (figure none).toInt64.toInt = 0 := by decide
      rw [hzero]
      simp [Py.toInt]
  | some d =>
      rw [Option.map_some, Option.getD_some, toInt_eq_figure_iff]
      simp

/-- **An object that is not empty is charged alike exactly if both members are read alike and one
of them is usable.** -/
theorem alike_obj_iff (u : Py.Unicode) (e : Text × Doc Numeral)
    (fields : List (Text × Doc Numeral)) (prompt prompt' text text' : Text) :
    Alike (e :: fields)
        (charged (Chat.usageNumbers (some (.obj (rustFields (e :: fields)))) prompt text))
        [Py.usageNumbers u (.dict (pyFields (e :: fields))) prompt' text'] ↔
      Reads u (e :: fields) := by
  have hp := member_iff u (member (e :: fields) "prompt_tokens")
  have hd := member_iff u (member (e :: fields) "completion_tokens")
  have hkeys : Reads u (e :: fields) ↔
      ((∀ d, member (e :: fields) "prompt_tokens" = some d → Readable u d) ∧
        ∀ d, member (e :: fields) "completion_tokens" = some d → Readable u d) ∧
      ∃ key ∈ keys, ∃ d, member (e :: fields) key = some d ∧ Usable d := by
    simp [Reads, keys]
  rw [charged_obj, py_obj, hkeys, ← hp, ← hd]
  constructor
  · rintro ⟨hsame, ⟨hp0, hd0⟩, hmarked⟩
    replace hsame := (List.cons.inj hsame).1
    refine ⟨?_, ?_⟩
    · cases hpi : Py.toInt u (((member (e :: fields) "prompt_tokens").map py).getD (.int 0)) with
      | error exc =>
          rw [hpi] at hsame
          cases hsame
      | ok p =>
          cases hdi : Py.toInt u
              (((member (e :: fields) "completion_tokens").map py).getD (.int 0)) with
          | error exc =>
              rw [hpi, hdi] at hsame
              cases hsame
          | ok d =>
              rw [hpi, hdi] at hsame
              have heq := Except.ok.inj hsame
              simp only [Prod.mk.injEq, and_true] at heq
              exact ⟨⟨by rw [heq.1], hp0⟩, ⟨by rw [heq.2], hd0⟩⟩
    · by_contra hnone
      have hsource : "upstream" = "estimated" :=
        hmarked fun key hkey d hmem huse => hnone ⟨key, hkey, d, hmem, huse⟩
      exact absurd hsource (by decide)
  · rintro ⟨⟨⟨hpi, hp0⟩, ⟨hdi, hd0⟩⟩, key, hkey, d, hmem, huse⟩
    refine ⟨?_, ⟨hp0, hd0⟩, fun hnone => absurd huse (hnone key hkey d hmem)⟩
    rw [hpi, hdi]
    rfl

/-! ### Estimates -/

/-- The estimate is the same in both languages. -/
theorem charged_estimate {prompt text : Text} (hprompt : prompt.length < 2 ^ 64)
    (htext : text.length < 2 ^ 64) {usage : Option Json} (h : Chat.upstreamUsage usage = none) :
    charged (Chat.usageNumbers usage prompt text) =
      ((Py.estimateUsage prompt text).1, (Py.estimateUsage prompt text).2, "estimated") := by
  have hquarter : ∀ n < 2 ^ 64, (UInt64.ofNat n / 4).toInt64.toInt = (n / 4 : ℕ) := by
    intro n hn
    have hdiv : (UInt64.ofNat n / 4).toNat = n / 4 := by
      rw [UInt64.toNat_div, UInt64.toNat_ofNat_of_lt' hn]
      rfl
    rw [Wrapping.toInt_toInt64, hdiv]
    exact Wrapping.wrap_eq_iff.mpr ⟨by omega, by omega⟩
  unfold Chat.usageNumbers
  rw [h]
  unfold charged Chat.estimateUsage Py.estimateUsage
  rw [hquarter _ hprompt, hquarter _ htext]

theorem alike_estimate_iff {fields : List (Text × Doc Numeral)} {prompt prompt' text text' : Text} :
    Alike fields ((Py.estimateUsage prompt text).1, (Py.estimateUsage prompt text).2, "estimated")
        [.ok ((Py.estimateUsage prompt' text').1, (Py.estimateUsage prompt' text').2,
          "estimated")] ↔
      prompt'.length / 4 = prompt.length / 4 ∧ text'.length / 4 = text.length / 4 := by
  unfold Py.estimateUsage
  constructor
  · intro h
    have hsame := Except.ok.inj (List.cons.inj h.same).1
    simp only [Prod.mk.injEq, and_true, Nat.cast_inj] at hsame
    exact hsame
  · rintro ⟨hprompt, htext⟩
    refine ⟨by rw [hprompt, htext], ⟨?_, ?_⟩, fun _ => rfl⟩
    · exact Int.natCast_nonneg _
    · exact Int.natCast_nonneg _

/-! ### Completions -/

/-- The members of a usage. -/
def fieldsOf : Option (Doc Numeral) → List (Text × Doc Numeral)
  | some (.obj fields) => fields
  | _ => []

/-- The usage of a completion is read alike, where the gateways read the texts `text` and `text'`:
an object with usable members, or what counts as false in Python under a prompt that is estimated
at zero and texts of one estimate. -/
def CompletionReads (u : Py.Unicode) (prompt text text' : Text) : Option (Doc Numeral) → Prop
  | some (.obj (e :: fields)) => Reads u (e :: fields)
  | usage => ((usage.map py).getD .none).truthy = false ∧ prompt.length < 4 ∧
      text'.length / 4 = text.length / 4

/-- A usage that is no object is estimated by the Rust gateway, without the prompt. -/
theorem alike_other_iff {u : Py.Unicode} {usage : Option (Doc Numeral)} {prompt text text' : Text}
    (htext : text.length < 2 ^ 64) (hrust : Chat.upstreamUsage (usage.map rust) = none)
    (hpy : ((usage.map py).getD .none).truthy = true →
      ∃ exc, ((usage.map py).getD .none).fields = .error exc) :
    Alike (fieldsOf usage)
        (charged (Chat.usageNumbers (usage.map rust) (Chat.promptText .null) text))
        [Py.usageNumbers u ((usage.map py).getD .none) prompt text'] ↔
      ((usage.map py).getD .none).truthy = false ∧ prompt.length < 4 ∧
        text'.length / 4 = text.length / 4 := by
  have hempty : Chat.promptText .null = [] := by decide
  unfold Py.usageNumbers
  rw [hempty, charged_estimate (by decide) htext hrust]
  cases htruthy : ((usage.map py).getD .none).truthy with
  | true =>
      obtain ⟨exc, hexc⟩ := hpy htruthy
      rw [if_pos rfl, hexc]
      constructor
      · intro h
        exact absurd h.same (by simp [bind, Except.bind])
      · rintro ⟨h, -⟩
        exact absurd h (by simp)
  | false =>
      rw [if_neg Bool.false_ne_true]
      refine alike_estimate_iff.trans ?_
      rw [List.length_nil]
      simp

theorem completionReads_iff (u : Py.Unicode) (usage : Option (Doc Numeral)) {prompt text : Text}
    (htext : text.length < 2 ^ 64) (text' : Text) :
    Alike (fieldsOf usage)
        (charged (Chat.usageNumbers (usage.map rust) (Chat.promptText .null) text))
        [Py.usageNumbers u ((usage.map py).getD .none) prompt text'] ↔
      CompletionReads u prompt text text' usage := by
  cases usage with
  | none => exact alike_other_iff htext rfl (by simp [Py.Value.truthy])
  | some d =>
      cases d with
      | obj fields =>
          cases fields with
          | nil => exact alike_other_iff htext rfl (by simp [py, pyFields, Py.Value.truthy])
          | cons e fields => exact alike_obj_iff u e fields _ _ _ _
      | num n =>
          refine alike_other_iff htext rfl fun _ => ?_
          cases n with
          | int negative n => cases negative <;> exact ⟨_, rfl⟩
          | float digits x => exact ⟨_, rfl⟩
      | null => exact alike_other_iff htext rfl fun _ => ⟨_, rfl⟩
      | bool b => exact alike_other_iff htext rfl fun _ => ⟨_, rfl⟩
      | str s => exact alike_other_iff htext rfl fun _ => ⟨_, rfl⟩
      | arr items => exact alike_other_iff htext rfl fun _ => ⟨_, rfl⟩

theorem get?_set_of_ne {fields : Py.Fields} {key other : String} (hne : other ≠ key)
    (v : Py.Value) : (fields.set key v).get? other = fields.get? other := by
  unfold Py.Fields.set Py.Fields.get?
  split_ifs with hany
  · clear hany
    induction fields with
    | nil => rfl
    | cons e fields ih =>
        rw [List.map_cons, List.find?_cons, List.find?_cons]
        by_cases hkey : e.1 = key
        · have hother : e.1 ≠ other := fun h => hne (h.symm.trans hkey)
          simpa [hkey, hne.symm, hother] using ih
        · rw [if_neg hkey]
          by_cases hother : e.1 = other
          · simp [hother]
          · simpa [hother] using ih
  · simp [List.find?_append, hne.symm]

theorem processResponse_dict {ctx : Py.Ctx} {fields : Py.Fields} {result : Py.Value}
    (h : Py.processResponse ctx (.dict fields) = .ok result) :
    ∃ fields' : Py.Fields, result = .dict fields' ∧
      fields'.get? "usage" = fields.get? "usage" := by
  simp only [Py.processResponse, Py.Value.fields, bind, Except.bind] at h
  split at h
  · cases h
  · split at h
    · cases h
    · split at h
      · cases h
        exact ⟨_, rfl, get?_set_of_ne (by decide) _⟩
      · cases h
        exact ⟨_, rfl, rfl⟩

theorem pyCompletion_eq (u : Py.Unicode) (ctx : Py.Ctx) (routedFrom : Option String)
    (payload : Py.Fields) (fields : Py.Fields) :
    pyCompletion u ctx routedFrom payload (.dict fields) =
      (pyText ctx routedFrom (.dict fields)).bind (fun text =>
        Py.usageNumbers u ((fields.get? "usage").getD .none) (Py.promptText payload) text) := by
  unfold pyCompletion Py.readResult pyText
  cases hresult : Py.processResponse ctx (.dict fields) with
  | error exc => rfl
  | ok result =>
      obtain ⟨fields', rfl, husage⟩ := processResponse_dict hresult
      have hrest : ∀ fields'' : Py.Fields, fields''.get? "usage" = fields.get? "usage" →
          Except.map (fun done : Py.Completion => (done.prompt, done.completion, done.source))
            (do
              let text ← Py.responseText (.dict fields'')
              let fields ← Py.Value.fields (.dict fields'')
              let usage ← Py.usageNumbers u
                ((Py.Fields.get? fields "usage").getD .none) (Py.promptText payload) text
              pure ⟨.dict fields'', text, usage.1, usage.2.1, usage.2.2⟩) =
            (Py.responseText (.dict fields'')).bind (fun text =>
              Py.usageNumbers u ((fields.get? "usage").getD .none) (Py.promptText payload)
                text) := by
        intro fields'' h
        rw [← h]
        cases Py.responseText (.dict fields'') with
        | error exc => rfl
        | ok text =>
            simp only [Py.Value.fields, bind, Except.bind, pure, Except.pure]
            cases Py.usageNumbers u ((Py.Fields.get? fields'' "usage").getD .none)
              (Py.promptText payload) text <;> rfl
      cases routedFrom with
      | none => exact hrest fields' husage
      | some model =>
          refine hrest (Py.Fields.set fields' "routed_from" (.str model.toList)) ?_
          rw [get?_set_of_ne (by decide), husage]

/-- **The usage of a completion.** -/
theorem completion_iff (u : Py.Unicode) {requested concrete : String} {g : Chat.Gateway}
    {chain : Inspectors.DlpState} {ctx : Py.Ctx} {routedFrom : Option String}
    {payload : Py.Fields} {completion : List (Text × Doc Numeral)} {tagged : Json}
    (htag : Chat.tagRouted requested concrete (rust (.obj completion)) = some tagged)
    (htext : (rustText g chain tagged).length < 2 ^ 64) :
    Alike (fieldsOf (member completion "usage")) (rustCompletion g chain tagged)
        [pyCompletion u ctx routedFrom payload (py (.obj completion))] ↔
      ∃ text, pyText ctx routedFrom (py (.obj completion)) = .ok text ∧
        CompletionReads u (Py.promptText payload) (rustText g chain tagged) text
          (member completion "usage") := by
  have husage : (Chat.restoreFirst g chain tagged).get? "usage" =
      (member completion "usage").map rust := by
    rw [Chat.usage_restoreFirst, Chat.usage_tagRouted htag, rust, get?_rust]
  have hrust : rustCompletion g chain tagged = charged (Chat.usageNumbers
      ((member completion "usage").map rust) (Chat.promptText .null)
        (rustText g chain tagged)) := by
    rw [rustCompletion, Chat.completionUsage, husage]
    rfl
  rw [hrust, py, pyCompletion_eq, get?_py]
  cases htext' : pyText ctx routedFrom (.dict (pyFields completion)) with
  | error exc =>
      refine iff_of_false (fun h => ?_) ?_
      · have hsame := (List.cons.inj h.same).1
        cases hsame
      · rintro ⟨text, h, -⟩
        cases h
  | ok text =>
      refine (completionReads_iff u (member completion "usage") htext text).trans ?_
      simp

/-! ### Streams -/

/-- The usage of a chunk, if it is an object that is not empty. -/
def usageOf : Doc Numeral → Option (List (Text × Doc Numeral))
  | .obj chunk => match member chunk "usage" with
    | some (.obj (e :: fields)) => some (e :: fields)
    | _ => none
  | _ => none

/-- The last usage of a stream. -/
def lastUsage (chunks : List (Doc Numeral)) : Option (List (Text × Doc Numeral)) :=
  chunks.reverse.findSome? usageOf

theorem usageOf_ne_nil {chunk : Doc Numeral} {fields : List (Text × Doc Numeral)}
    (h : usageOf chunk = some fields) : fields ≠ [] := by
  unfold usageOf at h
  split at h
  · split at h
    · cases h
      exact List.cons_ne_nil _ _
    · cases h
  · cases h

theorem lastUsage_mapItem (st : Dlp.StreamState) (chunk : Doc Numeral) :
    (Dlp.mapItem st (.ok (rust chunk))).2.lastUsage =
      ((usageOf chunk).map (fun fields => Json.obj (rustFields fields))).or st.lastUsage := by
  have hnote : (Dlp.mapItem st (.ok (rust chunk))).2.lastUsage =
      (Dlp.noteUsage st (rust chunk)).lastUsage := by
    simp only [Dlp.mapItem]
    cases Dlp.choicesOf (rust chunk) with
    | none => rfl
    | some choices => exact Dlp.restoreChoices_lastUsage _ _
  rw [hnote]
  unfold Dlp.noteUsage
  cases chunk with
  | obj fields =>
      rw [rust, get?_rust, usageOf]
      cases hmem : member fields "usage" with
      | none => rfl
      | some d =>
          cases d with
          | obj fields => cases fields <;> rfl
          | _ => rfl
  | _ => rfl

/-- The variables of the generator after an item. -/
def readItem (l : Py.Locals) (item : Py.Value) : Py.Locals :=
  ((Py.readChunk item l).map Prod.snd).getD l

theorem lastUsage_feedChoices (choices : List Py.Value) (l : Py.Locals) :
    (Py.feedChoices choices l).2.lastUsage = l.lastUsage := by
  induction choices generalizing l with
  | nil => rfl
  | cons choice choices ih =>
      simp only [Py.feedChoices]
      rw [ih]
      unfold Py.feedChoice
      split
      · rfl
      · split <;> rfl

theorem lastUsage_readItem (l : Py.Locals) (chunk : Doc Numeral) :
    (readItem l (py chunk)).lastUsage = ((usageOf chunk).map pyFields).or l.lastUsage := by
  cases chunk with
  | obj fields =>
      have hsee : (readItem l (py (.obj fields))).lastUsage =
          (l.seeUsage (pyFields fields)).lastUsage := by
        simp only [readItem, py, Py.readChunk]
        split
        · exact lastUsage_feedChoices _ _
        · rfl
      rw [hsee, Py.Locals.seeUsage, get?_py, usageOf]
      cases hmem : member fields "usage" with
      | none => rfl
      | some d =>
          cases d with
          | obj fields => cases fields <;> rfl
          | num n =>
              cases n with
              | int negative n => cases negative <;> rfl
              | float digits x => rfl
          | _ => rfl
  | num n =>
      cases n with
      | int negative n => cases negative <;> rfl
      | float digits x => rfl
  | _ => rfl

/-- What the chunks leave: the last usage, or what was there before. -/
theorem foldl_lastUsage {σ β : Type} (see : σ → Doc Numeral → σ) (last : σ → Option β)
    (f : List (Text × Doc Numeral) → β)
    (hsee : ∀ st chunk, last (see st chunk) = ((usageOf chunk).map f).or (last st))
    (st : σ) (chunks : List (Doc Numeral)) :
    last (chunks.foldl see st) = ((lastUsage chunks).map f).or (last st) := by
  unfold lastUsage
  induction chunks using List.reverseRecOn with
  | nil => rfl
  | append_singleton chunks chunk ih =>
      rw [List.foldl_append, List.foldl_cons, List.foldl_nil, hsee, ih, List.reverse_append,
        List.reverse_singleton, List.singleton_append, List.findSome?_cons]
      cases usageOf chunk <;> rfl

theorem lastUsage_drained (session : Dlp.StreamRestore) (chunks : List (Doc Numeral))
    (failure : Option (Text × Py.Exn)) :
    (Chat.drained (Dlp.StreamState.new session) (rustChunks chunks failure)).lastUsage =
      (lastUsage chunks).map (fun fields => Json.obj (rustFields fields)) := by
  have hfold := foldl_lastUsage (fun st chunk => (Dlp.mapItem st (.ok (rust chunk))).2)
    Dlp.StreamState.lastUsage _ lastUsage_mapItem (Dlp.StreamState.new session) chunks
  have hnone : (Dlp.StreamState.new session).lastUsage = none := rfl
  rw [hnone, Option.or_none] at hfold
  rw [← hfold, rustChunks]
  clear hfold hnone
  generalize Dlp.StreamState.new session = st
  induction chunks generalizing st with
  | nil => cases failure <;> rfl
  | cons chunk chunks ih => exact ih _

/-! ### What the generator asks for -/

/-- The variables of the generator with what is held back, as far as it can be restored. -/
def flushed (l : Py.Locals) : Py.Locals :=
  match l.session.flush with
  | (.ok text, session) =>
      if text = [] then { l with session } else { l with session, parts := l.parts ++ [text] }
  | (.error _, session) => { l with session }

/-- The variables of the generator in its `finally` block; it has flushed if the stream did not
break off. -/
def pyDrained (ctx : Py.Ctx) (w : Py.Upstream) : Py.Locals :=
  if w.ending.isOk then flushed (w.items.foldl readItem (Py.Locals.init ctx))
  else w.items.foldl readItem (Py.Locals.init ctx)

/-- The text that the Python gateway reads from a stream. -/
def pyStreamText (ctx : Py.Ctx) (w : Py.Upstream) : Text := (pyDrained ctx w).parts.flatten

/-- An operation that asks for no usage. -/
def Silent : Py.Op → Prop
  | .usageNumbers .. => False
  | _ => True

section Generator

open Py (Sse Locals Wire)

variable {g : Sse} {w : Py.Upstream}

/-- What a generator with these variables asks for. -/
def question (g : Sse) (l : Locals) : Py.Value × Text × Text :=
  (l.lastUsage.elim .none .dict, Py.promptText g.payload, l.parts.flatten)

theorem asked_of_silent (e : Py.Op) (s : Wire × List (Py.Value × Text × Text)) (h : Silent e) :
    s.2 = (recording w e s).2.2 := by
  cases e with
  | usageNumbers usage prompt text => exact h.elim
  | _ => rfl

theorem asked_exec {α : Type} {p : Py.Prog α} (h : p.Uses Silent)
    (s : Wire × List (Py.Value × Text × Text)) : (p.exec (recording w) s).2.2 = s.2 :=
  (Program.exec_rel (fun a b : Wire × List (Py.Value × Text × Text) => a.2 = b.2) (fun _ => rfl)
    (fun _ _ _ hab hbc => hab.trans hbc) asked_of_silent h s).symm

theorem silent_settleQuiet (rsv : Option Py.Reservation) (prompt completion : ℤ)
    (source : String) : (Py.settleQuiet rsv prompt completion source).Uses Silent := by
  cases rsv with
  | none => trivial
  | some rsv =>
      refine ⟨trivial, fun r => ?_⟩
      cases r with
      | ok _ => trivial
      | error e =>
          change Program.Uses Silent (if e.isException then _ else _)
          split_ifs <;> trivial

theorem asked_finalize (l : Locals) (s : Wire × List (Py.Value × Text × Text)) :
    ((g.finalize l).exec (recording w) s).2.2 = s.2 ++ [question g l] := by
  unfold Sse.finalize
  rw [Program.exec_bind]
  refine (asked_exec ?_ _).trans rfl
  split
  · trivial
  · refine (silent_settleQuiet _ _ _ _).bind fun r => ?_
    cases r with
    | error e => trivial
    | ok _ =>
        refine ⟨trivial, fun r => ?_⟩
        cases r with
        | error e => trivial
        | ok _ => exact ⟨trivial, fun _ => trivial⟩

theorem asked_leave (l : Locals) (outcome : Except Py.Exn Unit)
    (s : Wire × List (Py.Value × Text × Text)) :
    ((g.leave l outcome).exec (recording w) s).2.2 = s.2 ++ [question g l] := by
  unfold Sse.leave
  rw [Program.exec_bind]
  refine (asked_exec ?_ _).trans (asked_finalize l s)
  split <;> trivial

theorem asked_leaveWith (l : Locals) (err : Py.ApiError)
    (s : Wire × List (Py.Value × Text × Text)) :
    ((g.leaveWith l err).exec (recording w) s).2.2 = s.2 ++ [question g l] := by
  unfold Sse.leaveWith
  rw [Program.exec_bind]
  exact asked_leave l _ _

theorem asked_handleExn (l : Locals) (e : Py.Exn) (s : Wire × List (Py.Value × Text × Text)) :
    ((g.handleExn l e).exec (recording w) s).2.2 = s.2 ++ [question g l] := by
  cases e with
  | blocked message reason => exact asked_leaveWith _ _ _
  | provider message => exact asked_leaveWith _ _ _
  | _ => exact asked_leave _ _ _

theorem asked_finish (l : Locals) (s : Wire × List (Py.Value × Text × Text)) :
    ((g.finish l).exec (recording w) s).2.2 = s.2 ++ [question g l] := by
  unfold Sse.finish
  rw [Program.exec_bind]
  refine (asked_exec ?_ _).trans (asked_finalize l s)
  split
  · trivial
  · exact ⟨trivial, fun _ => trivial⟩

theorem asked_flushTail (l : Locals) (s : Wire × List (Py.Value × Text × Text)) :
    ((g.flushTail l).exec (recording w) s).2.2 = s.2 ++ [question g (flushed l)] := by
  unfold Sse.flushTail flushed
  rcases l.session.flush with ⟨text | text, session⟩
  · exact asked_finish _ s
  · dsimp only
    split_ifs
    · exact asked_finish _ s
    · rw [Program.exec_bind]
      exact asked_finish _ _

theorem asked_loop (items : List Py.Value) (l : Locals)
    (s : Wire × List (Py.Value × Text × Text))
    (htaken : s.1.taken + items.length = w.items.length) :
    ((g.loop items l).exec (recording w) s).2.2 = s.2 ++ [question g
      (if w.ending.isOk then flushed (items.foldl readItem l) else items.foldl readItem l)] := by
  induction items generalizing l s with
  | nil =>
      have hnone : ¬ s.1.taken < w.items.length := by
        rw [← htaken]
        simp
      have hlast : (Py.nextItem : Py.Prog _).exec (recording w) s =
          (w.ending, { s.1 with taken := s.1.taken + 1 }, s.2) := Prod.ext (if_neg hnone) rfl
      rw [Sse.loop, Program.exec_bind, hlast]
      cases w.ending with
      | error e => exact asked_handleExn l e _
      | ok _ => exact asked_flushTail l _
  | cons item items ih =>
      rw [List.length_cons] at htaken
      have hsome : s.1.taken < w.items.length := by omega
      have hrest : s.1.taken + 1 + items.length = w.items.length := by omega
      have hnext : (Py.nextItem : Py.Prog _).exec (recording w) s =
          (.ok (), { s.1 with taken := s.1.taken + 1 }, s.2) := Prod.ext (if_pos hsome) rfl
      rw [Sse.loop, Program.exec_bind, hnext, List.foldl_cons]
      unfold readItem
      cases hread : Py.readChunk item l with
      | none => exact ih l _ hrest
      | some x =>
          obtain ⟨chunk, l'⟩ := x
          dsimp only
          rw [Program.exec_bind]
          exact ih l' _ hrest

end Generator

/-- The generator charges once. -/
theorem pyStream_eq (u : Py.Unicode) (c : Py.Caller) (payload : Py.Fields) (ctx : Py.Ctx)
    (rsv : Option Py.Reservation) (w : Py.Upstream) :
    pyStream u c payload ctx rsv w = [Py.usageNumbers u
      ((pyDrained ctx w).lastUsage.elim .none .dict) (Py.promptText payload)
      (pyStreamText ctx w)] := by
  have hloop := asked_loop (g := ⟨c, payload, rsv⟩) (w := w) w.items (Py.Locals.init ctx)
    (⟨0, 0, []⟩, []) (Nat.zero_add _)
  unfold pyStream
  refine (congrArg (List.map _) hloop).trans ?_
  rfl

theorem lastUsage_flushed (l : Py.Locals) : (flushed l).lastUsage = l.lastUsage := by
  unfold flushed
  split
  · split_ifs <;> rfl
  · rfl

theorem lastUsage_pyDrained (ctx : Py.Ctx) (chunks : List (Doc Numeral))
    (failure : Option (Text × Py.Exn)) (rest : ℕ → (e : Py.Op) → Py.Res e) :
    (pyDrained ctx (pyChunks chunks failure rest)).lastUsage =
      (lastUsage chunks).map pyFields := by
  have hfold := foldl_lastUsage (fun l chunk => readItem l (py chunk)) Py.Locals.lastUsage _
    lastUsage_readItem (Py.Locals.init ctx) chunks
  have hnone : (Py.Locals.init ctx).lastUsage = none := rfl
  rw [hnone, Option.or_none] at hfold
  have hitems :
      ((pyChunks chunks failure rest).items.foldl readItem (Py.Locals.init ctx)).lastUsage =
      (lastUsage chunks).map pyFields := by
    rw [← hfold, pyChunks, List.foldl_map]
  unfold pyDrained
  split_ifs
  · rw [lastUsage_flushed, hitems]
  · exact hitems

/-- The usage of a stream is read alike, where the gateways read the prompts `prompt` and `prompt'`
and the texts `text` and `text'`: an object with usable members, or none at all under one estimate
of both. -/
def StreamReads (u : Py.Unicode) (prompt prompt' text text' : Text) :
    Option (List (Text × Doc Numeral)) → Prop
  | some fields => Reads u fields
  | none => prompt'.length / 4 = prompt.length / 4 ∧ text'.length / 4 = text.length / 4

/-- **The usage of a stream.** -/
theorem stream_iff (u : Py.Unicode) {a : Chat.Accountant} {session : Dlp.StreamRestore}
    {chunks : List (Doc Numeral)} {failure : Option (Text × Py.Exn)} {c : Py.Caller}
    {payload : Py.Fields} {ctx : Py.Ctx} {rsv : Option Py.Reservation}
    {rest : ℕ → (e : Py.Op) → Py.Res e} (hprompt : a.requestText.length < 2 ^ 64)
    (htext : (Chat.drained (Dlp.StreamState.new session)
      (rustChunks chunks failure)).completionText.length < 2 ^ 64) :
    Alike ((lastUsage chunks).getD []) (rustStream a session (rustChunks chunks failure))
        (pyStream u c payload ctx rsv (pyChunks chunks failure rest)) ↔
      StreamReads u a.requestText (Py.promptText payload)
        (Chat.drained (Dlp.StreamState.new session) (rustChunks chunks failure)).completionText
        (pyStreamText ctx (pyChunks chunks failure rest)) (lastUsage chunks) := by
  rw [pyStream_eq, lastUsage_pyDrained, rustStream, Chat.Accountant.usage, lastUsage_drained]
  cases hlast : lastUsage chunks with
  | none =>
      rw [Option.map_none, Option.map_none, charged_estimate hprompt htext rfl]
      exact alike_estimate_iff
  | some fields =>
      have hne : fields ≠ [] := by
        obtain ⟨chunk, -, hchunk⟩ := List.exists_of_findSome?_eq_some hlast
        exact usageOf_ne_nil hchunk
      obtain ⟨e, fields, rfl⟩ := List.exists_cons_of_ne_nil hne
      exact alike_obj_iff u e fields _ _ _ _

/-- **Both gateways read the usage alike, and never silently as zero, exactly for a completion
whose usage is an object with usable members, or counts as false while the prompt is estimated at
zero and both read texts of one estimate, and for a stream whose last usage has usable members, or
that has none while both read prompts and texts of one estimate.** -/
theorem usage_alike_iff (u : Py.Unicode) :
    (∀ (g : Chat.Gateway) (chain : Inspectors.DlpState) (ctx : Py.Ctx) (payload : Py.Fields)
        (requested concrete : String) (completion : List (Text × Doc Numeral)) (tagged : Json),
      Chat.tagRouted requested concrete (rust (.obj completion)) = some tagged →
      (rustText g chain tagged).length < 2 ^ 64 →
      (Alike (fieldsOf (member completion "usage")) (rustCompletion g chain tagged)
          [pyCompletion u ctx (if concrete ≠ requested then some requested else none) payload
            (py (.obj completion))] ↔
        ∃ text, pyText ctx (if concrete ≠ requested then some requested else none)
            (py (.obj completion)) = .ok text ∧
          CompletionReads u (Py.promptText payload) (rustText g chain tagged) text
            (member completion "usage"))) ∧
      ∀ (a : Chat.Accountant) (session : Dlp.StreamRestore) (chunks : List (Doc Numeral))
          (failure : Option (Text × Py.Exn)) (c : Py.Caller) (payload : Py.Fields) (ctx : Py.Ctx)
          (rsv : Option Py.Reservation) (rest : ℕ → (e : Py.Op) → Py.Res e),
        a.requestText.length < 2 ^ 64 →
        (Chat.drained (Dlp.StreamState.new session)
          (rustChunks chunks failure)).completionText.length < 2 ^ 64 →
        (Alike ((lastUsage chunks).getD []) (rustStream a session (rustChunks chunks failure))
            (pyStream u c payload ctx rsv (pyChunks chunks failure rest)) ↔
          StreamReads u a.requestText (Py.promptText payload)
            (Chat.drained (Dlp.StreamState.new session) (rustChunks chunks failure)).completionText
            (pyStreamText ctx (pyChunks chunks failure rest)) (lastUsage chunks)) :=
  ⟨fun _ _ _ _ _ _ _ _ htag htext => completion_iff u htag htext,
    fun _ _ _ _ _ _ _ _ _ hprompt htext => stream_iff u hprompt htext⟩

/-! ### Only a total -/

/-- Digits and blanks of ASCII. -/
def asciiTables : Py.Unicode where
  decimal c := if c.isDigit then some (c.toNat - 48) else none
  space c := c = ' '

/-- A completion with one answer and a usage. -/
def answered (usage : List (Text × Doc Numeral)) : List (Text × Doc Numeral) :=
  [("choices".toList, .arr [.obj [("message".toList,
      .obj [("content".toList, .str "hello".toList)])]]),
    ("usage".toList, .obj usage)]

/-- Nothing is masked or restored. -/
def plainCtx : Py.Ctx := ⟨.ok, none⟩

/-- A usage that only has the total. -/
def totalOnly : List (Text × Doc Numeral) := [("total_tokens".toList, .num (.int false 7))]

/-- Both charge zero, as upstream usage. -/
theorem total_silently_zero :
    ¬ Alike (fieldsOf (member (answered totalOnly) "usage"))
      (rustCompletion Chat.maskingGateway ⟨[], [], []⟩ (rust (.obj (answered totalOnly))))
      [pyCompletion asciiTables plainCtx none [] (py (.obj (answered totalOnly)))] := by
  intro h
  have hnone : ∀ key ∈ keys, member totalOnly key = none := by decide
  have hsource : "upstream" = "estimated" :=
    h.marked fun key hkey d hd => absurd (hd.symm.trans (hnone key hkey))
      (Option.some_ne_none d)
  exact absurd hsource (by decide)

/-- A usage with both members. -/
def bothCounts : List (Text × Doc Numeral) :=
  [("prompt_tokens".toList, .num (.int false 5)), ("completion_tokens".toList, .num (.int false 7))]

theorem bothCounts_reads : Reads asciiTables bothCounts := by
  refine ⟨?_, ?_⟩
  · have hprompt : member bothCounts "prompt_tokens" = some (.num (.int false 5)) := rfl
    have hdone : member bothCounts "completion_tokens" = some (.num (.int false 7)) := rfl
    rintro key hkey d hd
    rcases List.mem_pair.mp hkey with rfl | rfl
    · obtain rfl := Option.some.inj (hprompt.symm.trans hd)
      exact (by decide : 5 < 2 ^ 63)
    · obtain rfl := Option.some.inj (hdone.symm.trans hd)
      exact (by decide : 7 < 2 ^ 63)
  · exact ⟨"prompt_tokens", by simp [keys], .num (.int false 5), rfl, 5, rfl⟩

/-- The accounting of a stream in the Rust gateway. -/
def sampleAccountant : Chat.Accountant := ⟨"r", "c", "p", "m", [], [], true, none⟩

/-- A stream of two chunks, the second with a usage, that breaks off. -/
def sampleChunks : List (Doc Numeral) :=
  [.obj [("choices".toList, .arr [.obj [("delta".toList,
      .obj [("content".toList, .str "hello".toList)])]])], .obj (answered bothCounts)]

/-- A completion and a stream are charged alike. -/
theorem bothCounts_alike :
    Alike (fieldsOf (member (answered bothCounts) "usage"))
        (rustCompletion Chat.maskingGateway ⟨[], [], []⟩ (rust (.obj (answered bothCounts))))
        [pyCompletion asciiTables plainCtx none [] (py (.obj (answered bothCounts)))] ∧
      Alike ((lastUsage sampleChunks).getD [])
        (rustStream sampleAccountant ⟨[], [], "mask", []⟩
          (rustChunks sampleChunks (some ([], .provider ""))))
        (pyStream asciiTables ⟨"r", "c", "p", "m"⟩ [] plainCtx none
          (pyChunks sampleChunks (some ([], .provider "")) (fun _ => Py.quiet))) := by
  obtain ⟨hcompletion, hstream⟩ := usage_alike_iff asciiTables
  constructor
  · exact (hcompletion Chat.maskingGateway ⟨[], [], []⟩ plainCtx [] "m" "m" (answered bothCounts)
      _ rfl (by decide)).mpr ⟨"hello".toList, rfl, bothCounts_reads⟩
  · exact (hstream sampleAccountant ⟨[], [], "mask", []⟩ sampleChunks _ _ [] plainCtx none _
      (by decide) (by decide)).mpr bothCounts_reads

end FirewallLLM.Usage
