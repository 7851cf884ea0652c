import FirewallLLM.DlpRoundTrip
import Mathlib.Logic.Relation

/-! # The vault of a request

The masking of several texts with one vault, one replacement at a time: the session keeps what
`sanitize` and the loop over the messages work on, and a record of the spans replaced so far.

`exact_of_reaches`: at every point tokens and values of the vault determine each other, the scope
counts the replacements, and what was taken out of the text being rewritten is the span of the
original text. -/

namespace FirewallLLM.Dlp

/-! ### Sessions -/

/-- A replaced span: the text it belongs to, what was taken there, and the token put in. -/
structure Replaced where
  text : Text
  hit : Hit
  slice : Text
  token : Text
deriving DecidableEq

/-- The masking of several texts between two replacements. -/
structure Session where
  texts : List Text
  text : Text
  pending : List Hit
  masking : Masking
  replaced : List Replaced
deriving DecidableEq

namespace Session

/-- The vault and the scope start empty. -/
def start (texts : List Text) (draws : List (UInt64 × UInt64)) : Session :=
  ⟨texts, [], [], ⟨[], [], [], draws⟩, []⟩

/-- The next replacement in the text, or the next text. -/
def step (p : Patterns) (ord : VaultOrder) (x : Session) : Option Session :=
  match x.pending with
  | h :: hs =>
      let slice := (x.masking.out.take h.stop).drop h.start
      (tokenOf ord h.typ slice x.masking).map (fun (token, st) =>
        { x with
          pending := hs
          masking := { st with
            out := st.out.take h.start ++ token ++ st.out.drop h.stop
            scope := st.scope.count token }
          replaced := x.replaced ++ [⟨x.text, h, slice, token⟩] })
  | [] => match x.texts with
      | text :: texts => some { x with
          texts
          text
          pending := (accepted p text).reverse
          masking := { x.masking with out := text } }
      | [] => none

/-- The points of a run. -/
def Reaches (p : Patterns) (ord : VaultOrder) : Session → Session → Prop :=
  Relation.ReflTransGen (fun x y => x.step p ord = some y)

/-- The vault is a bijection, and the scope counts its uses. -/
structure Exact (x : Session) : Prop where
  tokens : (x.masking.vault.map Prod.fst).Nodup
  values : (x.masking.vault.map Prod.snd).Nodup
  scope : (x.masking.scope.map Prod.fst).Nodup
  keys : ∀ token, token ∈ x.masking.scope.map Prod.fst ↔ token ∈ x.masking.vault.map Prod.fst
  count : ∀ e ∈ x.masking.scope, e.2 = (x.replaced.map Replaced.token).count e.1
  slice : ∀ r ∈ x.replaced, r.slice = (r.text.take r.hit.stop).drop r.hit.start
  value : ∀ r ∈ x.replaced, (r.token, r.slice) ∈ x.masking.vault

/-- What has not been replaced yet is still the original text. -/
structure Inv (x : Session) : Prop extends Exact x where
  untouched : ∃ pos rest, x.masking.out = x.text.take pos ++ rest ∧ pos ≤ x.text.length ∧
    InOrder pos 0 x.pending.reverse

end Session

/-! ### One replacement -/

theorem inOrder_concat {len lo : ℕ} {hs : List Hit} {h : Hit} (horder : InOrder len lo (hs ++ [h])) :
    InOrder h.start lo hs ∧ lo ≤ h.start ∧ h.start ≤ h.stop ∧ h.stop ≤ len := by
  induction hs generalizing lo with
  | nil =>
      obtain ⟨hlo, hle, hlen, -⟩ := horder
      exact ⟨trivial, hlo, hle, hlen⟩
  | cons g hs ih =>
      obtain ⟨hlo, hle, hlen, hrest⟩ := horder
      obtain ⟨hinner, hstart, hspan⟩ := ih hrest
      exact ⟨⟨hlo, hle, hstart, hinner⟩, by omega, hspan⟩

/-- The token of a value is the one that the vault has for it, or a new one for a new value. -/
theorem tokenOf_vault {ord : VaultOrder} {typ val token : Text} {st st' : Masking}
    (h : tokenOf ord typ val st = some (token, st')) :
    (st' = st ∧ (token, val) ∈ st.vault) ∨
      (st'.vault = st.vault ++ [(token, val)] ∧ st'.out = st.out ∧ st'.scope = st.scope ∧
        token ∉ st.vault.map Prod.fst ∧ val ∉ st.vault.map Prod.snd) := by
  unfold tokenOf at h
  cases hfind : (ord.iter st.vault).find? (fun e => e.2 = val) with
  | some e =>
      rw [hfind] at h
      obtain ⟨rfl, rfl⟩ := Prod.mk.inj (Option.some.inj h)
      have hmem := (ord.perm st.vault).mem_iff.mp (List.mem_of_find?_eq_some hfind)
      have hval : e.2 = val := by simpa using List.find?_some hfind
      exact .inl ⟨rfl, by rw [← hval]; exact hmem⟩
  | none =>
      rw [hfind] at h
      obtain ⟨⟨t, draws⟩, hnew, heq⟩ := Option.map_eq_some_iff.mp h
      obtain ⟨rfl, rfl⟩ := Prod.mk.inj heq
      refine .inr ⟨rfl, rfl, rfl, (newToken_spec hnew).1, fun hmem => ?_⟩
      obtain ⟨e, he, hval⟩ := List.mem_map.mp hmem
      have hnone := List.find?_eq_none.mp hfind e ((ord.perm st.vault).mem_iff.mpr he)
      exact hnone (decide_eq_true hval)

/-- A vault in which tokens and values determine each other stays one, and gets the entry. -/
theorem tokenOf_bijection {ord : VaultOrder} {typ val token : Text} {st st' : Masking}
    (htokens : (st.vault.map Prod.fst).Nodup) (hvalues : (st.vault.map Prod.snd).Nodup)
    (h : tokenOf ord typ val st = some (token, st')) :
    (st'.vault.map Prod.fst).Nodup ∧ (st'.vault.map Prod.snd).Nodup ∧ st.vault ⊆ st'.vault ∧
      (token, val) ∈ st'.vault ∧
      (∀ t, t ∈ st'.vault.map Prod.fst ↔ t ∈ st.vault.map Prod.fst ∨ t = token) ∧
      st'.scope = st.scope := by
  rcases tokenOf_vault h with ⟨rfl, hmem⟩ | ⟨hvault, -, hscope, hfresh, hnew⟩
  · have hkey : token ∈ st'.vault.map Prod.fst := List.mem_map_of_mem hmem
    refine ⟨htokens, hvalues, List.Subset.refl _, hmem, fun t => ⟨.inl, ?_⟩, rfl⟩
    rintro (ht | rfl)
    · exact ht
    · exact hkey
  · rw [hvault, List.map_append, List.map_append, List.map_singleton, List.map_singleton,
      ← List.concat_eq_append, ← List.concat_eq_append]
    refine ⟨htokens.concat hfresh, hvalues.concat hnew, List.subset_append_left _ _,
      List.mem_append_right _ (List.mem_singleton_self _), fun t => ?_, hscope⟩
    rw [List.concat_eq_append, List.mem_append, List.mem_singleton]

theorem count_entry {scope : Scope} {log : List Text} {token : Text}
    (hcount : ∀ e ∈ scope, e.2 = log.count e.1)
    (hlog : ∀ t ∈ log, t ∈ scope.map Prod.fst) :
    ∀ e ∈ scope.count token, e.2 = (log ++ [token]).count e.1 := by
  intro e he
  unfold Scope.count at he
  rw [List.count_append]
  split_ifs at he with hmem
  · obtain ⟨e', he', rfl⟩ := List.mem_map.mp he
    split_ifs with heq
    · rw [heq, List.count_singleton_self, hcount e' he', heq]
    · rw [List.count_singleton, hcount e' he']
      simp [Ne.symm heq]
  · rcases List.mem_append.mp he with he | he
    · have hne : e.1 ≠ token := fun heq => hmem (heq ▸ List.mem_map_of_mem he)
      rw [List.count_singleton, hcount e he]
      simp [Ne.symm hne]
    · rw [List.mem_singleton.mp he, List.count_singleton_self,
        List.count_eq_zero.mpr fun hin => hmem (hlog token hin)]

theorem nodup_count {scope : Scope} (h : (scope.map Prod.fst).Nodup) (token : Text) :
    ((scope.count token).map Prod.fst).Nodup := by
  unfold Scope.count
  split_ifs with hmem
  · rw [keys_bump]
    exact h
  · rw [List.map_append, List.map_singleton, ← List.concat_eq_append]
    exact h.concat hmem

namespace Session

theorem inv_start (texts : List Text) (draws : List (UInt64 × UInt64)) :
    (start texts draws).Inv where
  tokens := List.nodup_nil
  values := List.nodup_nil
  scope := List.nodup_nil
  keys _ := Iff.rfl
  count _ he := absurd he List.not_mem_nil
  slice _ hr := absurd hr List.not_mem_nil
  value _ hr := absurd hr List.not_mem_nil
  untouched := ⟨0, [], rfl, le_rfl, trivial⟩

variable {p : Patterns} {ord : VaultOrder} {x y : Session}

theorem Inv.next (hx : x.Inv) {text : Text} {texts : List Text} :
    Inv { x with
      texts
      text
      pending := (accepted p text).reverse
      masking := { x.masking with out := text } } where
  tokens := hx.tokens
  values := hx.values
  scope := hx.scope
  keys := hx.keys
  count := hx.count
  slice := hx.slice
  value := hx.value
  untouched := ⟨text.length, [], by simp, le_rfl, by
    rw [List.reverse_reverse]
    exact inOrder_accepted p text⟩

theorem Exact.replace (hx : x.Exact) {typ slice token : Text} {h : Hit} {hs : List Hit}
    {st : Masking} (htoken : tokenOf ord typ slice x.masking = some (token, st))
    (hslice : slice = (x.text.take h.stop).drop h.start) (out : Text) :
    Exact { x with
      pending := hs
      masking := { st with out, scope := st.scope.count token }
      replaced := x.replaced ++ [⟨x.text, h, slice, token⟩] } := by
  obtain ⟨htokens, hvalues, hold, hentry, hkeys, hscope⟩ :=
    tokenOf_bijection hx.tokens hx.values htoken
  have hlog : ∀ t ∈ x.replaced.map Replaced.token, t ∈ x.masking.scope.map Prod.fst := by
    intro t ht
    obtain ⟨r, hr, rfl⟩ := List.mem_map.mp ht
    exact (hx.keys r.token).mpr (List.mem_map_of_mem (hx.value r hr))
  refine ⟨htokens, hvalues, ?_, fun t => ?_, ?_, fun r hr => ?_, fun r hr => ?_⟩
  · dsimp only
    rw [hscope]
    exact nodup_count hx.scope token
  · dsimp only
    rw [mem_keys_count, hkeys, hscope, hx.keys]
  · dsimp only
    rw [hscope, List.map_append]
    exact count_entry hx.count hlog
  · rcases List.mem_append.mp hr with hr | hr
    · exact hx.slice r hr
    · rw [List.mem_singleton.mp hr]
      exact hslice
  · rcases List.mem_append.mp hr with hr | hr
    · exact hold (hx.value r hr)
    · rw [List.mem_singleton.mp hr]
      exact hentry

theorem Inv.replace (hx : x.Inv) {h : Hit} {hs : List Hit} (hpending : x.pending = h :: hs)
    {token : Text} {st : Masking}
    (htoken : tokenOf ord h.typ ((x.masking.out.take h.stop).drop h.start) x.masking =
      some (token, st)) :
    Inv { x with
      pending := hs
      masking := { st with
        out := st.out.take h.start ++ token ++ st.out.drop h.stop
        scope := st.scope.count token }
      replaced := x.replaced ++
        [⟨x.text, h, (x.masking.out.take h.stop).drop h.start, token⟩] } := by
  obtain ⟨pos, rest, hout, hlen, horder⟩ := hx.untouched
  rw [hpending, List.reverse_cons] at horder
  obtain ⟨hinner, -, hle, hstop⟩ := inOrder_concat horder
  have htake : (x.text.take pos).length = pos := by
    rw [List.length_take]
    omega
  have hslice : (x.masking.out.take h.stop).drop h.start = (x.text.take h.stop).drop h.start := by
    rw [hout, List.take_append_of_le_length (by omega), List.take_take, Nat.min_eq_left hstop]
  have hsame : st.out = x.masking.out := by
    rcases tokenOf_vault htoken with ⟨rfl, -⟩ | ⟨-, hsame, -⟩
    · rfl
    · exact hsame
  refine ⟨hx.toExact.replace htoken hslice _, h.start, token ++ st.out.drop h.stop, ?_, ?_, hinner⟩
  · dsimp only
    rw [hsame, hout, List.take_append_of_le_length (by omega), List.take_take,
      Nat.min_eq_left (by omega), List.append_assoc]
  · dsimp only
    omega

theorem Inv.step (hx : x.Inv) (hstep : x.step p ord = some y) : y.Inv := by
  unfold Session.step at hstep
  cases hpending : x.pending with
  | cons h hs =>
      rw [hpending] at hstep
      obtain ⟨⟨token, st⟩, htoken, rfl⟩ := Option.map_eq_some_iff.mp hstep
      exact hx.replace hpending htoken
  | nil =>
      rw [hpending] at hstep
      cases htexts : x.texts with
      | nil =>
          rw [htexts] at hstep
          cases hstep
      | cons text texts =>
          rw [htexts] at hstep
          obtain rfl := Option.some.inj hstep
          exact hx.next

theorem Inv.reaches (hx : x.Inv) (h : Reaches p ord x y) : y.Inv := by
  induction h with
  | refl => exact hx
  | tail _ hstep ih => exact ih.step hstep

theorem exact_of_reaches {texts : List Text} {draws : List (UInt64 × UInt64)}
    (h : Reaches p ord (start texts draws) x) : x.Exact :=
  ((inv_start texts draws).reaches h).toExact

/-! ### The session of a masking -/

theorem step_of_maskHit {h : Hit} {hs : List Hit} (hpending : x.pending = h :: hs) {st : Masking}
    (hmask : maskHit ord x.masking h = some st) :
    ∃ r : Replaced, r.text = x.text ∧ r.hit = h ∧
      x.step p ord = some { x with pending := hs, masking := st, replaced := x.replaced ++ [r] } := by
  obtain ⟨⟨token, st'⟩, htoken, rfl⟩ := Option.map_eq_some_iff.mp hmask
  refine ⟨⟨x.text, h, (x.masking.out.take h.stop).drop h.start, token⟩, rfl, rfl, ?_⟩
  unfold Session.step
  rw [hpending]
  dsimp only
  rw [htoken]
  rfl

theorem reaches_pending {hs : List Hit} {st : Masking} (hpending : x.pending = hs)
    (hrun : hs.foldlM (maskHit ord) x.masking = some st) :
    ∃ rs : List Replaced, rs.map (fun r => (r.text, r.hit)) = hs.map (fun h => (x.text, h)) ∧
      Reaches p ord x { x with pending := [], masking := st, replaced := x.replaced ++ rs } := by
  induction hs generalizing x with
  | nil =>
      obtain rfl := Option.some.inj hrun
      refine ⟨[], rfl, ?_⟩
      rw [List.append_nil, ← hpending]
      exact .refl
  | cons h hs ih =>
      rw [List.foldlM_cons] at hrun
      obtain ⟨st₁, hmask, hrest⟩ := Option.bind_eq_some_iff.mp hrun
      obtain ⟨r, htext, hhit, hstep⟩ := step_of_maskHit (p := p) hpending hmask
      obtain ⟨rs, hrs, hreach⟩ := ih
        (x := { x with pending := hs, masking := st₁, replaced := x.replaced ++ [r] }) rfl hrest
      refine ⟨r :: rs, ?_, ?_⟩
      · rw [List.map_cons, List.map_cons, htext, hhit]
        exact congrArg (List.cons (x.text, h)) hrs
      · rw [List.append_cons]
        exact .head hstep hreach

/-- The accepted hits of the texts, in the order in which they are replaced. -/
def spans (p : Patterns) (texts : List Text) : List (Text × Hit) :=
  texts.flatMap (fun text => (accepted p text).reverse.map (fun h => (text, h)))

theorem reaches_sanitizeAll {texts outs : List Text} {last : Masking} (htexts : x.texts = texts)
    (hpending : x.pending = []) (h : sanitizeAll p ord texts x.masking.vault x.masking.scope
      x.masking.draws = some (outs, last)) :
    ∃ y, Reaches p ord x y ∧ y.texts = [] ∧ y.pending = [] ∧ y.masking.vault = last.vault ∧
      y.masking.scope = last.scope ∧
      y.replaced.map (fun r => (r.text, r.hit)) =
        x.replaced.map (fun r => (r.text, r.hit)) ++ spans p texts := by
  induction texts generalizing x outs with
  | nil =>
      obtain ⟨rfl, rfl⟩ := Prod.mk.inj (Option.some.inj h)
      exact ⟨x, .refl, htexts, hpending, rfl, rfl, (List.append_nil _).symm⟩
  | cons text texts ih =>
      obtain ⟨st, hs, hrest⟩ := Option.bind_eq_some_iff.mp h
      obtain ⟨⟨outs', last'⟩, hall, heq⟩ := Option.map_eq_some_iff.mp hrest
      obtain ⟨rfl, rfl⟩ := Prod.mk.inj heq
      have hnext : x.step p ord = some { x with
          texts
          text
          pending := (accepted p text).reverse
          masking := { x.masking with out := text } } := by
        unfold Session.step
        rw [hpending, htexts]
      obtain ⟨rs, hrs, hreach⟩ := reaches_pending (p := p) (x := { x with
          texts
          text
          pending := (accepted p text).reverse
          masking := { x.masking with out := text } }) rfl hs
      obtain ⟨y, hy, hdone, hno, hvault, hscope, hspans⟩ := ih (x := { x with
          texts
          text
          pending := []
          masking := st
          replaced := x.replaced ++ rs }) rfl rfl hall
      refine ⟨y, .head hnext (hreach.trans hy), hdone, hno, hvault, hscope, ?_⟩
      rw [hspans, List.map_append, hrs, List.append_assoc]
      rfl

/-- **At every point the vault is a bijection with exact counts**, and `sanitize` of one text after
the other goes through the points of a run, in which each accepted hit is replaced once. -/
theorem vault_exact (p : Patterns) (ord : VaultOrder) (texts : List Text)
    (draws : List (UInt64 × UInt64)) :
    (∀ x, Reaches p ord (start texts draws) x → x.Exact) ∧
    ∀ outs last, sanitizeAll p ord texts [] [] draws = some (outs, last) →
      ∃ x, Reaches p ord (start texts draws) x ∧ x.texts = [] ∧ x.pending = [] ∧
        x.masking.vault = last.vault ∧ x.masking.scope = last.scope ∧
        x.replaced.map (fun r => (r.text, r.hit)) = spans p texts :=
  ⟨fun _ hx => exact_of_reaches hx, fun _ _ h =>
    reaches_sanitizeAll (x := start texts draws) rfl rfl h⟩

/-- The same address in two texts has one token, which is counted twice. -/
theorem vault_exact_sample :
    ∃ x : Session, x.Exact ∧ x.masking.scope = [(formatToken Detector.email.typ (171, 205), 2)] := by
  have hmask : sanitizeAll samplePatterns insertionOrder [sampleText, sampleText] [] []
      [(171, 205)] = some
        (["to [EMAIL_00000000000000ab00000000000000cd]".toList,
            "to [EMAIL_00000000000000ab00000000000000cd]".toList],
          ⟨[], [(formatToken Detector.email.typ (171, 205), "ivan@mail.ru".toList)],
            [(formatToken Detector.email.typ (171, 205), 2)], []⟩) := by decide
  have hvault := vault_exact samplePatterns insertionOrder [sampleText, sampleText] [(171, 205)]
  obtain ⟨x, hx, -, -, -, hscope, -⟩ := hvault.2 _ _ hmask
  exact ⟨x, hvault.1 x hx, hscope⟩

end Session

end FirewallLLM.Dlp
