import FirewallLLM.PyStream
import FirewallLLM.StreamResponse

/-! # The end of a stream

Both gateways hold the end of the text back while it can be the beginning of a token.  What they
emit are restored pieces of what they have received, and it accounts for the text that was
received if the pieces make up all of it.

The generator `sse` flushes what is held back when the provider has no more items, and not when
the provider raises; `stream_response` flushes behind the last item, also when that is an error.
`accounts_iff`: the ends at which nothing is lost. -/

namespace FirewallLLM

open Dlp (Text)

/-- What is emitted, under any restoring, are the restored pieces of what was received. -/
def Accounts {ρ : Type} (restore : ρ → Text → Text) (received : Text) (emitted : ρ → Text) : Prop :=
  ∃ pieces : List Text, pieces.flatten = received ∧
    ∀ r, emitted r = (pieces.map (restore r)).flatten

/-- Where the restoring leaves the text and its parts alone, all of it is emitted. -/
theorem Accounts.eq_received {ρ : Type} {restore : ρ → Text → Text} {received : Text}
    {emitted : ρ → Text} (h : Accounts restore received emitted) {r : ρ}
    (hr : ∀ t, t <:+: received → restore r t = t) : emitted r = received := by
  obtain ⟨pieces, hpieces, hemitted⟩ := h
  have hsame : ∀ t ∈ pieces, restore r t = t := fun t ht =>
    hr t (hpieces ▸ List.infix_of_mem_flatten ht)
  rw [hemitted, List.map_congr_left hsame, List.map_id', hpieces]

namespace Py

/-! ### What is held back -/

/-- The text ends in what can be the beginning of a token. -/
def EndsOpen (t : Text) : Prop := ∃ before word, t = before ++ '[' :: word ∧ openTail word = true

theorem splitPartial_open {c : Char} {cs : Text} (h : c = '[' ∧ openTail cs = true) :
    splitPartial (c :: cs) = ([], c :: cs) := by
  simp [splitPartial, h]

theorem splitPartial_closed {c : Char} {cs : Text} (h : ¬ (c = '[' ∧ openTail cs = true)) :
    splitPartial (c :: cs) = (c :: (splitPartial cs).1, (splitPartial cs).2) := by
  have hbool : ¬ (c = '[' && openTail cs) = true := by
    rwa [Bool.and_eq_true, decide_eq_true_eq]
  rw [splitPartial, if_neg hbool]

theorem splitPartial_append (t : Text) : (splitPartial t).1 ++ (splitPartial t).2 = t := by
  induction t with
  | nil => rfl
  | cons c cs ih =>
      by_cases hopen : c = '[' ∧ openTail cs = true
      · rw [splitPartial_open hopen]
        rfl
      · rw [splitPartial_closed hopen]
        exact congrArg (c :: ·) ih

theorem endsOpen_cons (c : Char) (cs : Text) :
    EndsOpen (c :: cs) ↔ (c = '[' ∧ openTail cs = true) ∨ EndsOpen cs := by
  constructor
  · rintro ⟨before, word, heq, hword⟩
    cases before with
    | nil =>
        obtain ⟨rfl, rfl⟩ := List.cons_eq_cons.mp heq
        exact .inl ⟨rfl, hword⟩
    | cons b before => exact .inr ⟨before, word, (List.cons_eq_cons.mp heq).2, hword⟩
  · rintro (⟨rfl, hword⟩ | ⟨before, word, rfl, hword⟩)
    · exact ⟨[], cs, rfl, hword⟩
    · exact ⟨c :: before, word, rfl, hword⟩

theorem splitPartial_eq_nil (t : Text) : (splitPartial t).2 = [] ↔ ¬ EndsOpen t := by
  induction t with
  | nil =>
      refine iff_of_true rfl ?_
      rintro ⟨before, word, heq, -⟩
      cases before <;> cases heq
  | cons c cs ih =>
      rw [endsOpen_cons]
      by_cases hopen : c = '[' ∧ openTail cs = true
      · rw [splitPartial_open hopen]
        simp [hopen]
      · rw [splitPartial_closed hopen, or_iff_right hopen]
        exact ih

theorem openTail_length {cs : Text} (h : openTail cs = true) : cs.length ≤ 65 := by
  simp only [openTail, Bool.and_eq_true, decide_eq_true_eq] at h
  obtain ⟨hlength, -⟩ := h
  split_ifs at hlength
  · rw [List.length_dropLast] at hlength
    omega
  · omega

theorem openTail_of_append {cs ds : Text} (h : openTail (cs ++ ds) = true) :
    openTail cs = true := by
  cases ds using List.reverseRecOn with
  | nil => rwa [List.append_nil] at h
  | append_singleton ds d =>
      -- all of `cs` is in front of a newline at the end
      have hword : cs.length ≤ 64 ∧ cs.all isTokenChar = true := by
        simp only [openTail, Bool.and_eq_true, decide_eq_true_eq] at h
        obtain ⟨hlength, hall⟩ := h
        split_ifs at hlength hall
        · rw [← List.append_assoc, List.dropLast_concat] at hlength hall
          rw [List.length_append] at hlength
          rw [List.all_append, Bool.and_eq_true] at hall
          exact ⟨by omega, hall.1⟩
        · rw [List.length_append] at hlength
          rw [List.all_append, Bool.and_eq_true] at hall
          exact ⟨by omega, hall.1⟩
      have hlast : cs.getLast? ≠ some '\n' := by
        intro hnewline
        have hmem : '\n' ∈ cs := List.mem_of_getLast? hnewline
        exact absurd (List.all_eq_true.mp hword.2 _ hmem) (by decide)
      simp only [openTail, if_neg hlast, hword.1, hword.2, decide_true, Bool.and_self]

/-- What is held back of a longer text only depends on what is held back of its beginning. -/
theorem splitPartial_snd_append (a b : Text) :
    (splitPartial (a ++ b)).2 = (splitPartial ((splitPartial a).2 ++ b)).2 := by
  induction a with
  | nil => rfl
  | cons c cs ih =>
      by_cases hopen : c = '[' ∧ openTail cs = true
      · rw [splitPartial_open hopen]
      · have hlater : ¬ (c = '[' ∧ openTail (cs ++ b) = true) := fun h =>
          hopen ⟨h.1, openTail_of_append h.2⟩
        rw [List.cons_append, splitPartial_closed hlater, splitPartial_closed hopen]
        exact ih

/-- What is held back is never as long as `_MAX_CARRY`. -/
theorem splitPartial_length (t : Text) : (splitPartial t).2.length ≤ maxCarry := by
  induction t with
  | nil => exact Nat.zero_le _
  | cons c cs ih =>
      by_cases hopen : c = '[' ∧ openTail cs = true
      · have hlength := openTail_length hopen.2
        rw [splitPartial_open hopen, List.length_cons, maxCarry]
        omega
      · rw [splitPartial_closed hopen]
        exact ih

/-! ### Sessions -/

section Sessions

variable {σ : Type} (step : σ → Text → Text × σ)

/-- What is made of the deltas, one after the other. -/
def outputs : σ → List Text → List Text
  | _, [] => []
  | a, d :: ds => (step a d).1 :: outputs (step a d).2 ds

/-- The state after the deltas. -/
def stateAfter (a : σ) (ds : List Text) : σ := ds.foldl (fun a d => (step a d).2) a

/-- A session with the states `a`, which answers by `step` and is flushed to `last`. -/
structure StreamRestore.Follows (view : σ → StreamRestore) (last : σ → Text) : Prop where
  feed : ∀ a text, (view a).feed text = (.ok (step a text).1, view (step a text).2)
  flush : ∀ a, ∃ b, (view a).flush = (.ok (last a), view b)

variable {step}

theorem outputs_append (a : σ) (ds es : List Text) :
    outputs step a (ds ++ es) = outputs step a ds ++ outputs step (stateAfter step a ds) es := by
  induction ds generalizing a with
  | nil => rfl
  | cons d ds ih => exact congrArg _ (ih _)

theorem stateAfter_append (a : σ) (ds es : List Text) :
    stateAfter step a (ds ++ es) = stateAfter step (stateAfter step a ds) es :=
  List.foldl_append

end Sessions

/-- The session over a sanitizer that never raises. -/
def StreamRestore.over (restore : Text → Text) (carry : Text) : StreamRestore :=
  ⟨some (fun t => .ok (restore t)), carry⟩

/-- The piece that a delta completes, and what is held back then. -/
def cut (carry d : Text) : Text × Text := splitPartial (carry ++ d)

/-- What `flush` makes of the carry. -/
def flushed (restore : Text → Text) (carry : Text) : Text :=
  if carry = [] then [] else restore carry

theorem follows_over (restore : Text → Text) : StreamRestore.Follows
    (fun carry d => (restore (cut carry d).1, (cut carry d).2)) (StreamRestore.over restore)
    (flushed restore) where
  feed carry text := by
    have hfew : ¬ maxCarry < (splitPartial (carry ++ text)).2.length :=
      not_lt.mpr (splitPartial_length _)
    exact if_neg hfew
  flush carry := by
    refine ⟨[], ?_⟩
    by_cases hcarry : carry = []
    · rw [flushed, if_pos hcarry, hcarry]
      rfl
    · rw [flushed, if_neg hcarry]
      exact if_neg hcarry

theorem follows_passthrough : StreamRestore.Follows (fun (_ : Unit) d => (d, ()))
    (fun _ => ⟨none, []⟩) (fun _ => []) where
  feed _ _ := rfl
  flush _ := ⟨(), rfl⟩

theorem outputs_passthrough (ds : List Text) :
    outputs (fun (_ : Unit) d => (d, ())) () ds = ds := by
  induction ds with
  | nil => rfl
  | cons d ds ih => exact congrArg (d :: ·) ih

theorem outputs_over (restore : Text → Text) (carry : Text) (ds : List Text) :
    outputs (fun carry d => (restore (cut carry d).1, (cut carry d).2)) carry ds =
      (outputs cut carry ds).map restore := by
  induction ds generalizing carry with
  | nil => rfl
  | cons d ds ih => exact congrArg (restore (cut carry d).1 :: ·) (ih _)

theorem outputs_stateAfter (carry : Text) (ds : List Text) :
    (outputs cut carry ds).flatten ++ stateAfter cut carry ds = carry ++ ds.flatten := by
  induction ds generalizing carry with
  | nil => simp [outputs, stateAfter]
  | cons d ds ih =>
      have hcut : (cut carry d).1 ++ (cut carry d).2 = carry ++ d := splitPartial_append _
      have hafter : stateAfter cut carry (d :: ds) = stateAfter cut (cut carry d).2 ds := rfl
      rw [outputs, hafter, List.flatten_cons, List.append_assoc, ih, ← List.append_assoc, hcut,
        List.flatten_cons, List.append_assoc]

theorem stateAfter_eq {carry : Text} (h : (splitPartial carry).2 = carry) (ds : List Text) :
    stateAfter cut carry ds = (splitPartial (carry ++ ds.flatten)).2 := by
  induction ds generalizing carry with
  | nil => rw [List.flatten_nil, List.append_nil, h, stateAfter, List.foldl_nil]
  | cons d ds ih =>
      have hsettled : (splitPartial (cut carry d).2).2 = (cut carry d).2 := by
        have happend := splitPartial_snd_append (carry ++ d) []
        rw [List.append_nil, List.append_nil] at happend
        exact happend.symm
      have hafter : stateAfter cut carry (d :: ds) = stateAfter cut (cut carry d).2 ds := rfl
      rw [hafter, ih hsettled, cut, ← splitPartial_snd_append, List.flatten_cons,
        List.append_assoc]

/-! ### The texts of the chunks -/

theorem get?_set_self (fields : Fields) (key : String) (v : Value) :
    (fields.set key v).get? key = some v := by
  unfold Fields.set Fields.get?
  split_ifs with hany
  · have hkeys : ((fun e : String × Value => decide (e.1 = key)) ∘
        fun e => if e.1 = key then (key, v) else e) = fun e => decide (e.1 = key) := by
      funext e
      by_cases he : e.1 = key <;> simp [he]
    rw [List.find?_map, hkeys]
    cases hfind : fields.find? (fun e => decide (e.1 = key)) with
    | none =>
        obtain ⟨e, he, hkey⟩ := List.any_eq_true.mp hany
        exact absurd hkey (List.find?_eq_none.mp hfind e he)
    | some e =>
        have he : e.1 = key := by simpa using List.find?_some hfind
        simp [he]
  · have hnone : fields.find? (fun e => decide (e.1 = key)) = none :=
      List.find?_eq_none.mpr fun e he hkey => hany (List.any_eq_true.mpr ⟨e, he, hkey⟩)
    simp [List.find?_append, hnone]

/-- The content delta of a choice. -/
def choiceTexts (choice : Value) : List Text := ((deltaText choice).map (·.2.2)).toList

/-- The content deltas of a chunk. -/
def chunkTexts : Value → List Text
  | .dict chunk => match Fields.get? chunk "choices" with
    | some (.list choices) => choices.flatMap choiceTexts
    | _ => []
  | _ => []

/-- The content deltas that are sent. -/
def eventTexts : Event → List Text
  | .data chunk => chunkTexts chunk
  | .done => []

theorem choiceTexts_set (fields delta : Fields) (text : Text) :
    (choiceTexts (.dict (fields.set "delta" (.dict (delta.set "content" (.str text)))))).flatten =
      text := by
  simp only [choiceTexts, deltaText, get?_set_self]
  split_ifs with hnil
  · exact hnil.symm
  · exact List.flatten_singleton ..

section Chunks

variable {σ : Type} {step : σ → Text → Text × σ} {view : σ → StreamRestore} {last : σ → Text}

theorem feedChoice_spec (hview : StreamRestore.Follows step view last) (choice : Value) {a : σ}
    {l : Locals} (h : l.session = view a) :
    (choiceTexts (feedChoice choice l).1).flatten =
        (outputs step a (choiceTexts choice)).flatten ∧
      (feedChoice choice l).2.session = view (stateAfter step a (choiceTexts choice)) := by
  unfold feedChoice
  cases hdelta : deltaText choice with
  | none =>
      have hnone : choiceTexts choice = [] := by rw [choiceTexts, hdelta]; rfl
      rw [hnone]
      exact ⟨rfl, h⟩
  | some d =>
      obtain ⟨fields, delta, text⟩ := d
      have hone : choiceTexts choice = [text] := by rw [choiceTexts, hdelta]; rfl
      simp only [h, hview.feed, hone, choiceTexts_set]
      exact ⟨(List.append_nil _).symm, rfl⟩

theorem feedChoices_spec (hview : StreamRestore.Follows step view last) (choices : List Value)
    {a : σ} {l : Locals} (h : l.session = view a) :
    ((feedChoices choices l).1.flatMap choiceTexts).flatten =
        (outputs step a (choices.flatMap choiceTexts)).flatten ∧
      (feedChoices choices l).2.session =
        view (stateAfter step a (choices.flatMap choiceTexts)) := by
  induction choices generalizing a l with
  | nil => exact ⟨rfl, h⟩
  | cons choice choices ih =>
      obtain ⟨htext, hsession⟩ := feedChoice_spec hview choice h
      obtain ⟨htexts, hlast⟩ := ih hsession
      simp only [feedChoices, List.flatMap_cons]
      rw [List.flatten_append, htext, htexts, hlast, outputs_append, List.flatten_append,
        stateAfter_append]
      exact ⟨rfl, rfl⟩

theorem readChunk_spec (hview : StreamRestore.Follows step view last) (item : Value) {a : σ}
    {l : Locals} (h : l.session = view a) :
    (readChunk item l = none ∧ chunkTexts item = []) ∨
      ∃ chunk l', readChunk item l = some (chunk, l') ∧
        (chunkTexts chunk).flatten = (outputs step a (chunkTexts item)).flatten ∧
        l'.session = view (stateAfter step a (chunkTexts item)) := by
  cases item with
  | dict chunk =>
      refine .inr ?_
      have husage : (l.seeUsage chunk).session = view a := by
        unfold Locals.seeUsage
        split <;> exact h
      by_cases hlist : ∃ choices, Fields.get? chunk "choices" = some (.list choices)
      · obtain ⟨choices, hchoices⟩ := hlist
        obtain ⟨htexts, hsession⟩ := feedChoices_spec hview choices husage
        have hsent : chunkTexts (.dict chunk) = choices.flatMap choiceTexts := by
          simp only [chunkTexts, hchoices]
        have hread : readChunk (.dict chunk) l =
            some (.dict (Fields.set chunk "choices"
                (.list (feedChoices choices (l.seeUsage chunk)).1)),
              (feedChoices choices (l.seeUsage chunk)).2) := by
          simp only [readChunk, hchoices]
        refine ⟨_, _, hread, ?_, ?_⟩
        · rw [hsent, ← htexts, chunkTexts]
          simp only [get?_set_self]
        · rw [hsent]
          exact hsession
      · have hsent : chunkTexts (.dict chunk) = [] := by
          simp only [chunkTexts]
          split
          · exact absurd ⟨_, ‹_›⟩ hlist
          · rfl
        have hread : readChunk (.dict chunk) l = some (.dict chunk, l.seeUsage chunk) := by
          simp only [readChunk]
          split
          · exact absurd ⟨_, ‹_›⟩ hlist
          · rfl
        refine ⟨_, _, hread, ?_, ?_⟩
        · rw [hsent]
          rfl
        · rw [hsent]
          exact husage
  | _ => exact .inl ⟨rfl, rfl⟩

end Chunks

/-! ### The client and the provider -/

/-- A provider that hands its items out and ends the stream, and what is answered to the rest. -/
structure Upstream where
  items : List Value
  ending : Except Exn Unit
  rest : ℕ → (e : Op) → Res e

/-- What has been handed out, asked for and sent. -/
structure Wire where
  taken : ℕ
  asked : ℕ
  events : List Event

/-- The operations with a client that stays connected. -/
def Upstream.answer (w : Upstream) : (e : Op) → Wire → Res e × Wire
  | .chatStream _, s => (w.items, s)
  | .nextItem, s =>
      (if s.taken < w.items.length then .ok () else w.ending, { s with taken := s.taken + 1 })
  | .send event, s => (.ok (), { s with events := s.events ++ [event] })
  | e, s => (w.rest s.asked e, { s with asked := s.asked + 1 })

/-- The text of the deltas that arrive. -/
def Upstream.received (w : Upstream) : Text := (w.items.flatMap chunkTexts).flatten

/-- The text that has been sent. -/
def Wire.text (s : Wire) : Text := (s.events.flatMap eventTexts).flatten

/-- The text that the generator sends. -/
def emitted (c : Caller) (payload : Fields) (rsv : Option Reservation) (w : Upstream) (ctx : Ctx) :
    Text :=
  ((sse c payload ctx rsv).exec w.answer ⟨0, 0, []⟩).2.text

/-- Whatever the operation is answered, no text is sent. -/
def Mute : Op → Prop
  | .send event => eventTexts event = []
  | _ => True

section Generator

variable {g : Sse} {w : Upstream} {σ : Type} {step : σ → Text → Text × σ}
  {view : σ → StreamRestore} {last : σ → Text}

theorem text_of_mute (e : Op) (s : Wire) (h : Mute e) : s.text = (w.answer e s).2.text := by
  cases e with
  | send event =>
      have hnone : eventTexts event = [] := h
      simp [Upstream.answer, Wire.text, hnone]
  | _ => rfl

theorem text_exec {α : Type} {p : Prog α} (h : p.Uses Mute) (s : Wire) :
    (p.exec w.answer s).2.text = s.text :=
  (Program.exec_rel (fun a b : Wire => a.text = b.text) (fun _ => rfl)
    (fun _ _ _ hab hbc => hab.trans hbc) text_of_mute h s).symm

theorem mute_settleQuiet (rsv : Option Reservation) (prompt completion : ℤ) (source : String) :
    (settleQuiet rsv prompt completion source).Uses Mute := by
  cases rsv with
  | none => trivial
  | some rsv =>
      refine ⟨trivial, fun r => ?_⟩
      cases r with
      | ok _ => trivial
      | error e =>
          change Program.Uses Mute (if e.isException then _ else _)
          split_ifs <;> trivial

theorem mute_finalize (l : Locals) : (g.finalize l).Uses Mute := by
  refine ⟨trivial, fun r => ?_⟩
  cases r with
  | error e => trivial
  | ok numbers =>
      obtain ⟨prompt, completion, source⟩ := numbers
      refine (mute_settleQuiet _ _ _ _).bind fun r => ?_
      cases r with
      | error e => trivial
      | ok _ =>
          refine ⟨trivial, fun r => ?_⟩
          cases r with
          | error e => trivial
          | ok _ => exact ⟨trivial, fun _ => trivial⟩

theorem mute_leave (l : Locals) (outcome : Except Exn Unit) : (g.leave l outcome).Uses Mute :=
  (mute_finalize l).bind fun r => by cases r <;> trivial

theorem mute_leaveWith (l : Locals) (err : ApiError) : (g.leaveWith l err).Uses Mute :=
  ⟨rfl, fun _ => mute_leave l _⟩

theorem mute_handleExn (l : Locals) (e : Exn) : (g.handleExn l e).Uses Mute := by
  cases e with
  | blocked message reason => exact mute_leaveWith _ _
  | provider message => exact mute_leaveWith _ _
  | _ => exact mute_leave _ _

theorem mute_finish (l : Locals) : (g.finish l).Uses Mute :=
  (mute_finalize l).bind fun r => by
    cases r with
    | ok _ => exact ⟨rfl, fun _ => trivial⟩
    | error e => trivial

theorem text_send (event : Event) (s : Wire) :
    (w.answer (.send event) s).2.text = s.text ++ (eventTexts event).flatten := by
  simp [Upstream.answer, Wire.text]

theorem text_flushTail (hview : StreamRestore.Follows step view last) {a : σ} {l : Locals}
    (h : l.session = view a) (s : Wire) :
    ((g.flushTail l).exec w.answer s).2.text = s.text ++ last a := by
  obtain ⟨b, hflush⟩ := hview.flush a
  unfold Sse.flushTail
  rw [h, hflush]
  dsimp only
  split_ifs with hnil
  · rw [hnil, List.append_nil]
    exact text_exec (mute_finish _) s
  · have htail : (eventTexts (.data (tailChunk (last a)))).flatten = last a := by
      have hone : eventTexts (.data (tailChunk (last a))) = choiceTexts (.dict
          [("index", .int 0), ("delta", .dict [("content", .str (last a))])]) ++ [] := rfl
      rw [hone, List.append_nil]
      exact choiceTexts_set [("index", .int 0)] [] (last a)
    rw [Program.exec_bind]
    change ((g.finish _).exec w.answer (w.answer (.send _) s).2).2.text = _
    rw [text_exec (mute_finish _), text_send, htail]

/-- The loop sends what the session makes of the deltas; it is flushed only if the stream ends
normally. -/
theorem text_loop (hview : StreamRestore.Follows step view last) (items : List Value) {a : σ}
    {l : Locals} {s : Wire} (h : l.session = view a)
    (htaken : s.taken + items.length = w.items.length) :
    ((g.loop items l).exec w.answer s).2.text =
      s.text ++ (outputs step a (items.flatMap chunkTexts)).flatten ++
        if w.ending.isOk then last (stateAfter step a (items.flatMap chunkTexts)) else [] := by
  induction items generalizing a l s with
  | nil =>
      have hnone : ¬ s.taken < w.items.length := by
        rw [← htaken]
        simp
      have hlast : (nextItem : Prog _).exec w.answer s =
          (w.ending, { s with taken := s.taken + 1 }) := Prod.ext (if_neg hnone) rfl
      rw [Sse.loop, Program.exec_bind, hlast]
      cases w.ending with
      | error e =>
          change ((g.handleExn l e).exec w.answer _).2.text = _
          rw [text_exec (mute_handleExn l e)]
          simp [outputs, Wire.text, Except.isOk, Except.toBool]
      | ok _ =>
          change ((g.flushTail l).exec w.answer _).2.text = _
          rw [text_flushTail hview h]
          simp [outputs, Wire.text, Except.isOk, Except.toBool, stateAfter]
  | cons item items ih =>
      rw [List.length_cons] at htaken
      have hsome : s.taken < w.items.length := by omega
      have hrest : s.taken + 1 + items.length = w.items.length := by omega
      have hnext : (nextItem : Prog _).exec w.answer s =
          (.ok (), { s with taken := s.taken + 1 }) := Prod.ext (if_pos hsome) rfl
      rw [Sse.loop, Program.exec_bind, hnext, List.flatMap_cons, outputs_append,
        List.flatten_append, stateAfter_append]
      rcases readChunk_spec hview item h with ⟨hread, htext⟩ | ⟨chunk, l', hread, htext, hsession⟩
      · simp only [hread, htext]
        rw [ih h hrest]
        rfl
      · simp only [hread]
        rw [Program.exec_bind]
        change ((g.loop items l').exec w.answer (w.answer (.send (.data chunk)) _).2).2.text = _
        have hsent : (eventTexts (.data chunk)).flatten =
            (outputs step a (chunkTexts item)).flatten := htext
        rw [ih hsession hrest, text_send, hsent]
        simp only [List.append_assoc]
        rfl

theorem emitted_eq (hview : StreamRestore.Follows step view last) {a : σ} {ctx : Ctx}
    (h : (Locals.init ctx).session = view a) (c : Caller) (payload : Fields)
    (rsv : Option Reservation) : emitted c payload rsv w ctx =
      (outputs step a (w.items.flatMap chunkTexts)).flatten ++
        if w.ending.isOk then last (stateAfter step a (w.items.flatMap chunkTexts)) else [] := by
  have hloop := text_loop (g := ⟨c, payload, rsv⟩) (w := w) (s := ⟨0, 0, []⟩) hview w.items h
    (Nat.zero_add _)
  exact hloop

end Generator

/-- The session over a sanitizer `restore`, or over none. -/
def ctxOver (processText : Text → Except Exn Text) (restore : Option (Text → Text)) : Ctx :=
  ⟨processText, restore.map (fun f t => .ok (f t))⟩

section Ends

variable (c : Caller) (payload : Fields) (rsv : Option Reservation) (w : Upstream)
  (processText : Text → Except Exn Text)

theorem emitted_over (restore : Text → Text) :
    emitted c payload rsv w (ctxOver processText (some restore)) =
      ((outputs cut [] (w.items.flatMap chunkTexts)).map restore).flatten ++
        if w.ending.isOk then flushed restore (splitPartial w.received).2 else [] := by
  have hstart : (Locals.init (ctxOver processText (some restore))).session =
      StreamRestore.over restore [] := rfl
  have hheld : stateAfter cut [] (w.items.flatMap chunkTexts) = (splitPartial w.received).2 :=
    stateAfter_eq rfl _
  rw [emitted_eq (follows_over restore) hstart, outputs_over, ← hheld]
  rfl

/-- The generator accounts for the text exactly when it ends normally or holds nothing back. -/
theorem sse_accounts_iff :
    Accounts (fun restore => restore) w.received
        (fun restore => emitted c payload rsv w (ctxOver processText (some restore))) ↔
      w.ending.isOk = true ∨ ¬ EndsOpen w.received := by
  set ds := w.items.flatMap chunkTexts with hds
  have hall : (outputs cut [] ds).flatten ++ (splitPartial w.received).2 = w.received := by
    have hafter := outputs_stateAfter [] ds
    rwa [stateAfter_eq rfl] at hafter
  rw [← splitPartial_eq_nil]
  constructor
  · rintro ⟨pieces, hpieces, hemitted⟩
    by_contra hlost
    obtain ⟨hending, hheld⟩ := not_or.mp hlost
    -- the client gets the text itself, without what is held back
    have hsame : emitted c payload rsv w (ctxOver processText (some id)) =
        (pieces.map id).flatten := hemitted id
    rw [emitted_over, if_neg hending, List.map_id, List.map_id, hpieces, List.append_nil,
      ← hds] at hsame
    rw [hsame, List.append_right_eq_self] at hall
    exact hheld hall
  · intro hends
    by_cases hheld : (splitPartial w.received).2 = []
    · refine ⟨outputs cut [] ds, by rwa [hheld, List.append_nil] at hall, fun restore => ?_⟩
      dsimp only
      rw [emitted_over, hheld, flushed, if_pos rfl, ite_self, List.append_nil]
    · have hending : w.ending.isOk = true := hends.resolve_right hheld
      refine ⟨outputs cut [] ds ++ [(splitPartial w.received).2], ?_, fun restore => ?_⟩
      · rw [List.flatten_append, List.flatten_singleton, hall]
      · dsimp only
        rw [emitted_over, if_pos hending, flushed, if_neg hheld, List.map_append,
          List.flatten_append, List.map_singleton, List.flatten_singleton]

theorem emitted_passthrough :
    emitted c payload rsv w (ctxOver processText none) = w.received := by
  have hstart : (Locals.init (ctxOver processText none)).session = ⟨none, []⟩ := rfl
  rw [emitted_eq follows_passthrough hstart, outputs_passthrough, ite_self, List.append_nil]
  rfl

end Ends

end Py

/-! ### The stream of the Rust gateway -/

namespace Dlp

/-- The text of the deltas. -/
def Deltas.text (ds : Deltas) : Text := (ds.map Prod.snd).flatten

theorem emissions_text (held : Origin) (ds : Deltas) :
    ((emissions held ds).map (fun e => e.2.text)).flatten = held.text ++ Deltas.text ds := by
  induction ds generalizing held with
  | nil => simp [emissions, Deltas.text]
  | cons e ds ih =>
      obtain ⟨i, d⟩ := e
      have hsplit := Origin.split_append (held ++ Origin.ofDelta i d)
      rw [emissions, List.map_cons, List.flatten_cons, ih, ← List.append_assoc,
        ← Origin.text_append, hsplit, Origin.text_append, Origin.text_ofDelta, List.append_assoc]
      rfl

/-- Restoring by a vault, a scope and a policy. -/
def restoreBy (r : Vault × Scope × String) (t : Text) : Text := deanonymize t r.1 r.2.1 r.2.2

theorem text_streamResponse (st : StreamState) (items : List Item) :
    Deltas.text (eventDeltas (streamResponse st items)) =
      Deltas.text (restored st.session (fed items)) := by
  rw [eventDeltas_streamResponse, restored_eq_feeds]
  split_ifs with hnil
  · rw [hnil, List.append_nil]
    simp [Deltas.text]
  · rfl

theorem respond_accounts (items : List Item) :
    Accounts restoreBy (Deltas.text (fed items))
      (fun r => Deltas.text (eventDeltas (respond r.1 r.2.1 r.2.2 items))) := by
  refine ⟨(emissions [] (fed items)).map (fun e => e.2.text), emissions_text [] _, ?_⟩
  rintro ⟨vault, scope, policy⟩
  have hcarry : (StreamRestore.new vault scope policy).carry = Origin.text [] := rfl
  dsimp only
  rw [respond, text_streamResponse, StreamState.new, restored_eq_emissions hcarry, Deltas.text,
    List.map_map, List.map_map]
  rfl

end Dlp

/-! ### Both -/

/-- **No text is lost at the end of a stream of the Python gateway exactly when the stream ends
normally or the text that was received does not end in what can be the beginning of a token; the
client gets just that text if the sanitizer leaves it alone.  At the end of a stream of the Rust
gateway none is lost.** -/
theorem accounts_iff (c : Py.Caller) (payload : Py.Fields) (rsv : Option Py.Reservation)
    (processText : Text → Except Py.Exn Text) (w : Py.Upstream) :
    (Accounts (fun restore => restore) w.received
        (fun restore => Py.emitted c payload rsv w (Py.ctxOver processText (some restore))) ↔
      w.ending.isOk = true ∨ ¬ Py.EndsOpen w.received) ∧
    (w.ending.isOk = true ∨ ¬ Py.EndsOpen w.received →
      ∀ restore : Text → Text, (∀ t, t <:+: w.received → restore t = t) →
        Py.emitted c payload rsv w (Py.ctxOver processText (some restore)) = w.received) ∧
    Py.emitted c payload rsv w (Py.ctxOver processText none) = w.received ∧
    ∀ items : List Dlp.Item,
      Accounts Dlp.restoreBy (Dlp.Deltas.text (Dlp.fed items))
        (fun r => Dlp.Deltas.text (Dlp.eventDeltas (Dlp.respond r.1 r.2.1 r.2.2 items))) :=
  ⟨Py.sse_accounts_iff c payload rsv w processText,
    fun h _ hrestore =>
      ((Py.sse_accounts_iff c payload rsv w processText).mpr h).eq_received hrestore,
    Py.emitted_passthrough c payload rsv w processText, Dlp.respond_accounts⟩

namespace Py

/-- What the rest of the program is answered where nothing fails. -/
def quiet : (e : Op) → Res e
  | .lock | .nextItem | .send _ | .settle .. | .observe _ => .ok ()
  | .resolve model _ => .ok (model, model)
  | .inspect payload _ => .ok (payload, ⟨.ok, none⟩)
  | .admitReq .. => .error (.quotaExceeded "")
  | .chat _ => .ok .none
  | .acquire => true
  | .chatStream _ => []
  | .readResult .. => .ok ⟨.none, [], 0, 0, "estimated"⟩
  | .usageNumbers .. => .ok (0, 0, "estimated")
  | .auditNow _ | .auditWrite _ => ()

/-- A provider that fails behind a chunk with an open bracket. -/
def cutOff : Upstream :=
  ⟨[.dict [("choices", .list [.dict [("index", .int 0),
    ("delta", .dict [("content", .str "see [1".toList)])]])]], .error (.provider "reset"),
    fun _ => quiet⟩

/-- The bracket and what follows it never reach the client. -/
theorem held_back_is_lost :
    ¬ ∀ (c : Caller) (payload : Fields) (rsv : Option Reservation)
      (processText : Text → Except Exn Text) (w : Upstream),
      Accounts (fun restore => restore) w.received
        (fun restore => emitted c payload rsv w (ctxOver processText (some restore))) := by
  intro h
  have hopen : EndsOpen cutOff.received := ⟨"see ".toList, ['1'], rfl, rfl⟩
  have hiff := sse_accounts_iff ⟨"id", "c", "p", "m"⟩ [] none cutOff .ok
  rcases hiff.mp (h _ _ _ _ _) with hending | hclosed
  · cases hending
  · exact hclosed hopen

end Py

end FirewallLLM
