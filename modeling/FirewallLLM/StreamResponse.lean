import FirewallLLM.Json
import FirewallLLM.DlpRestore

/-! # The streamed response

`stream_response` passes the chunks of the provider on, restores the content of every choice,
flushes what the restore session holds back and ends with `[DONE]`.  One session serves all
choices.  Here is what the client receives; the accounting that goes with the stream has a
module of its own.

The part of the session that the choices share is its carry.  `Origin` follows every character
of the carry back to the choice it was sent for, and `received_eq_emissions` says that the
client receives the restored texts of the emissions.

`streamsPerChoice_iff`: the stream is restored per choice exactly when no delta arrives while
text of another choice is held back, and what is held back at the end was sent for choice 0. -/

namespace FirewallLLM.Dlp

/-! ### The response -/

/-- An item of the provider stream: a chunk, or the text of an error. -/
abbrev Item := Except Text Json

/-- An SSE event: `data:` with a value, or `data: [DONE]`. -/
inductive Event where
  | data (j : Json)
  | done

/-- What the closures of `stream_response` share. -/
structure StreamState where
  session : StreamRestore
  completionText : Text
  lastUsage : Option Json
  streamError : Bool

namespace StreamState

/-- The state at the opening of a stream. -/
def new (session : StreamRestore) : StreamState := ⟨session, [], none, false⟩

end StreamState

/-- `choice["delta"]["content"]`, if it is a string. -/
def deltaContent (choice : Json) : Option Text :=
  ((choice.get? "delta").bind (fun d => d.get? "content")).bind Json.asStr?

/-- Restore one choice of a chunk. -/
def restoreChoice (st : StreamState) (choice : Json) : Json × StreamState :=
  match deltaContent choice with
  | some delta =>
      let (restored, session) := st.session.feed delta
      (choice.modify "delta" (fun d => d.set "content" (.str restored)),
        { st with session, completionText := st.completionText ++ restored })
  | none => (choice, st)

/-- The loop over the choices of a chunk. -/
def restoreChoices : StreamState → List Json → List Json × StreamState
  | st, [] => ([], st)
  | st, choice :: choices =>
      let (choice, st) := restoreChoice st choice
      let (choices, st) := restoreChoices st choices
      (choice :: choices, st)

/-- Only a non-empty usage object counts as provider usage. -/
def noteUsage (st : StreamState) (chunk : Json) : StreamState :=
  match (chunk.get? "usage").bind Json.asObj? with
  | some (_ :: _) => { st with lastUsage := chunk.get? "usage" }
  | _ => st

/-- The `choices` of a chunk, if they are an array. -/
def choicesOf (chunk : Json) : Option (List Json) := (chunk.get? "choices").bind Json.asArr?

/-- The event for an item of the provider stream. -/
def mapItem (st : StreamState) : Item → Event × StreamState
  | .error err =>
      (.data (.obj [("error",
        .obj [("message", .str err), ("type", .str "upstream_error".toList)])]),
        { st with streamError := true })
  | .ok chunk =>
      let st := noteUsage st chunk
      match choicesOf chunk with
      | some choices =>
          let (choices, st) := restoreChoices st choices
          (.data (chunk.set "choices" (.arr choices)), st)
      | none => (.data chunk, st)

/-- The chunk with the flushed text. -/
def tailChunk (flushed : Text) : Json :=
  .obj [("object", .str "chat.completion.chunk".toList),
    ("choices", .arr [.obj [("index", .num (.posInt 0)),
      ("delta", .obj [("content", .str flushed)])]])]

/-- The events after the last item. -/
def tailEvents (st : StreamState) : List Event :=
  if st.session.flush.1 = [] then [.done] else [.data (tailChunk st.session.flush.1), .done]

/-- `stream_response`: the events of the body. -/
def streamResponse : StreamState → List Item → List Event
  | st, [] => tailEvents st
  | st, item :: items => (mapItem st item).1 :: streamResponse (mapItem st item).2 items

/-! ### What is sent and what is received under an index -/

/-- The index of a choice. -/
def choiceIndex (choice : Json) : Option ℕ :=
  ((choice.get? "index").bind Json.asU64?).map UInt64.toNat

/-- Content deltas, each with the index of its choice. -/
abbrev Deltas := List (Option ℕ × Text)

/-- The content delta of a choice. -/
def deltaOf (choice : Json) : Option (Option ℕ × Text) :=
  (deltaContent choice).map (fun delta => (choiceIndex choice, delta))

/-- The content deltas of a chunk. -/
def deltas (chunk : Json) : Deltas := ((choicesOf chunk).getD []).filterMap deltaOf

/-- The content deltas of the provider, in the order of the stream. -/
def fed (items : List Item) : Deltas :=
  items.flatMap (fun item => match item with
    | .ok chunk => deltas chunk
    | .error _ => [])

/-- The content deltas of some events. -/
def eventDeltas (events : List Event) : Deltas :=
  events.flatMap (fun event => match event with
    | .data chunk => deltas chunk
    | .done => [])

/-- The deltas under an index. -/
def deltasUnder (i : Option ℕ) (ds : Deltas) : List Text :=
  (ds.filter (fun e => e.1 = i)).map Prod.snd

/-- The content that the provider sends for a choice. -/
def sent (i : ℕ) (items : List Item) : Text := (deltasUnder (some i) (fed items)).flatten

/-- The content that the client receives for a choice. -/
def received (i : ℕ) (events : List Event) : Text :=
  (deltasUnder (some i) (eventDeltas events)).flatten

@[simp] theorem deltasUnder_nil (i : Option ℕ) : deltasUnder i [] = [] := rfl

theorem deltasUnder_cons (i j : Option ℕ) (d : Text) (ds : Deltas) :
    deltasUnder i ((j, d) :: ds) = if j = i then d :: deltasUnder i ds else deltasUnder i ds := by
  unfold deltasUnder
  rw [List.filter_cons]
  by_cases h : j = i
  · simp [h]
  · simp [h]

theorem deltasUnder_append (i : Option ℕ) (ds es : Deltas) :
    deltasUnder i (ds ++ es) = deltasUnder i ds ++ deltasUnder i es := by
  unfold deltasUnder
  rw [List.filter_append, List.map_append]

/-! ### The session behind the response -/

/-- What the session makes of the deltas it is fed: one text for each, and the flushed text
under index 0. -/
def restored : StreamRestore → Deltas → Deltas
  | s, [] => [(some 0, s.flush.1)]
  | s, (i, d) :: ds => (i, (s.feed d).1) :: restored (s.feed d).2 ds

/-- The session after some deltas. -/
def feedAll (s : StreamRestore) (ds : Deltas) : StreamRestore :=
  ds.foldl (fun s e => (s.feed e.2).2) s

/-- What the session makes of deltas that others follow. -/
def feeds : StreamRestore → Deltas → Deltas
  | _, [] => []
  | s, (i, d) :: ds => (i, (s.feed d).1) :: feeds (s.feed d).2 ds

theorem restored_append (s : StreamRestore) (ds es : Deltas) :
    restored s (ds ++ es) = feeds s ds ++ restored (feedAll s ds) es := by
  induction ds generalizing s with
  | nil => rfl
  | cons e ds ih =>
      obtain ⟨i, d⟩ := e
      rw [List.cons_append, restored, feeds, List.cons_append, ih]
      rfl

theorem restored_eq_feeds (s : StreamRestore) (ds : Deltas) :
    restored s ds = feeds s ds ++ [(some 0, (feedAll s ds).flush.1)] := by
  have happend := restored_append s ds []
  rwa [List.append_nil] at happend

theorem feeds_append (s : StreamRestore) (ds es : Deltas) :
    feeds s (ds ++ es) = feeds s ds ++ feeds (feedAll s ds) es := by
  induction ds generalizing s with
  | nil => rfl
  | cons e ds ih =>
      obtain ⟨i, d⟩ := e
      exact congrArg _ (ih _)

theorem restoreChoice_spec (st : StreamState) (choice : Json) :
    deltaOf (restoreChoice st choice).1 =
        (deltaOf choice).map (fun e => (e.1, (st.session.feed e.2).1)) ∧
      (restoreChoice st choice).2.session = match deltaOf choice with
        | some e => (st.session.feed e.2).2
        | none => st.session := by
  unfold restoreChoice deltaOf
  cases hdelta : deltaContent choice with
  | none => exact ⟨by rw [Option.map_none, hdelta]; rfl, rfl⟩
  | some delta =>
      refine ⟨?_, rfl⟩
      obtain ⟨content, hcontent, hstr⟩ := Option.bind_eq_some_iff.mp hdelta
      obtain ⟨d, hd, hc⟩ := Option.bind_eq_some_iff.mp hcontent
      have hindex : ∀ f, choiceIndex (choice.modify "delta" f) = choiceIndex choice := by
        intro f
        unfold choiceIndex
        rw [Json.get?_modify_of_ne (by decide)]
      have hnew : ∀ t : Text, deltaContent (choice.modify "delta"
          (fun d => d.set "content" (.str t))) = some t := by
        intro t
        unfold deltaContent
        rw [Json.get?_modify_self _ hd, Option.bind_some, Json.get?_set_self hc, Option.bind_some]
        rfl
      dsimp only
      rw [hnew, hindex]
      rfl

theorem restoreChoices_spec (st : StreamState) (choices : List Json) :
    (restoreChoices st choices).1.filterMap deltaOf =
        feeds st.session (choices.filterMap deltaOf) ∧
      (restoreChoices st choices).2.session =
        feedAll st.session (choices.filterMap deltaOf) := by
  induction choices generalizing st with
  | nil => exact ⟨rfl, rfl⟩
  | cons choice choices ih =>
      obtain ⟨hdelta, hsession⟩ := restoreChoice_spec st choice
      obtain ⟨hrest, hlast⟩ := ih (restoreChoice st choice).2
      simp only [restoreChoices]
      rw [List.filterMap_cons, List.filterMap_cons, hdelta, hlast, hrest, hsession]
      cases deltaOf choice with
      | none => exact ⟨rfl, rfl⟩
      | some e => exact ⟨rfl, rfl⟩

@[simp] theorem noteUsage_session (st : StreamState) (chunk : Json) :
    (noteUsage st chunk).session = st.session := by
  unfold noteUsage
  split <;> rfl

theorem mapItem_spec (st : StreamState) (item : Item) :
    eventDeltas [(mapItem st item).1] = feeds st.session (fed [item]) ∧
      (mapItem st item).2.session = feedAll st.session (fed [item]) := by
  cases item with
  | error err => exact ⟨rfl, rfl⟩
  | ok chunk =>
      simp only [mapItem, fed, eventDeltas, List.flatMap_cons, List.flatMap_nil, List.append_nil]
      cases hchoices : choicesOf chunk with
      | none => exact ⟨by simp [deltas, hchoices, feeds], by simp [deltas, hchoices, feedAll]⟩
      | some choices =>
          obtain ⟨hnew, hlast⟩ := restoreChoices_spec (noteUsage st chunk) choices
          rw [noteUsage_session] at hnew hlast
          have hset : choicesOf (chunk.set "choices" (.arr (restoreChoices (noteUsage st chunk)
              choices).1)) = some _ := Json.asArr?_get?_set hchoices _
          simp only [deltas, hset, hchoices, Option.getD_some]
          exact ⟨hnew, hlast⟩

/-- The deltas of the events are those that the session makes of the deltas of the provider, and
what is flushed. -/
theorem eventDeltas_streamResponse (st : StreamState) (items : List Item) :
    eventDeltas (streamResponse st items) = feeds st.session (fed items) ++
      if (feedAll st.session (fed items)).flush.1 = [] then []
      else [(some 0, (feedAll st.session (fed items)).flush.1)] := by
  induction items generalizing st with
  | nil =>
      have htail : ∀ t : Text, deltas (tailChunk t) = [(some 0, t)] := fun t => rfl
      have hfed : fed [] = [] := rfl
      have hflush : feedAll st.session [] = st.session := rfl
      rw [streamResponse, tailEvents, hfed, hflush]
      split_ifs with hnil
      · rfl
      · simp [eventDeltas, htail, feeds]
  | cons item items ih =>
      have hcons : eventDeltas (streamResponse st (item :: items)) =
          eventDeltas [(mapItem st item).1] ++
            eventDeltas (streamResponse (mapItem st item).2 items) := by
        simp only [streamResponse, eventDeltas, List.flatMap_cons, List.flatMap_nil,
          List.append_nil]
      have hfed : fed (item :: items) = fed [item] ++ fed items := by
        simp only [fed, List.flatMap_cons, List.flatMap_nil, List.append_nil]
      obtain ⟨hevent, hsession⟩ := mapItem_spec st item
      have hall : feedAll st.session (fed [item] ++ fed items) =
          feedAll (mapItem st item).2.session (fed items) := by
        rw [hsession]
        exact List.foldl_append
      rw [hcons, hfed, ih, hevent, hall, feeds_append, hsession, List.append_assoc]

theorem deltasUnder_streamResponse (i : Option ℕ) (st : StreamState) (items : List Item) :
    (deltasUnder i (eventDeltas (streamResponse st items))).flatten =
      (deltasUnder i (restored st.session (fed items))).flatten := by
  rw [eventDeltas_streamResponse, restored_eq_feeds, deltasUnder_append, deltasUnder_append,
    List.flatten_append, List.flatten_append]
  split_ifs with hnil
  · rw [hnil, deltasUnder_cons]
    split_ifs <;> rfl
  · rfl

/-! ### The origin of what is emitted -/

/-- Characters, each with the index it was sent for. -/
abbrev Origin := List (Option ℕ × Char)

/-- The text without its origin. -/
def Origin.text (o : Origin) : Text := o.map Prod.snd

/-- All characters were sent for one index. -/
def Origin.IsOf (o : Origin) (i : Option ℕ) : Prop := ∀ c ∈ o, c.1 = i

instance (o : Origin) (i : Option ℕ) : Decidable (o.IsOf i) :=
  inferInstanceAs (Decidable (∀ c ∈ o, c.1 = i))

/-- A delta with its origin. -/
def Origin.ofDelta (i : Option ℕ) (d : Text) : Origin := d.map (fun c => (i, c))

/-- The part of a buffer that is emitted and the part that is held back, by `splitBuf`. -/
def Origin.split (o : Origin) : Origin × Origin :=
  o.splitAt (StreamRestore.splitBuf o.text).1.length

/-- What is emitted under each index of the response, and where it comes from. -/
def emissions : Origin → Deltas → List (Option ℕ × Origin)
  | held, [] => [(some 0, held)]
  | held, (i, d) :: ds =>
      (i, (held ++ Origin.ofDelta i d).split.1) ::
        emissions (held ++ Origin.ofDelta i d).split.2 ds

namespace Origin

@[simp] theorem text_append (o o' : Origin) : (o ++ o').text = o.text ++ o'.text :=
  List.map_append

@[simp] theorem text_ofDelta (i : Option ℕ) (d : Text) : (ofDelta i d).text = d := by
  simp [text, ofDelta, Function.comp_def]

theorem isOf_ofDelta (i : Option ℕ) (d : Text) : (ofDelta i d).IsOf i := by
  intro c hc
  obtain ⟨x, -, rfl⟩ := List.mem_map.mp hc
  rfl

theorem isOf_append {o o' : Origin} {i : Option ℕ} :
    (o ++ o').IsOf i ↔ o.IsOf i ∧ o'.IsOf i := by
  simp only [IsOf, List.mem_append, or_imp, forall_and]

theorem split_append (o : Origin) : o.split.1 ++ o.split.2 = o := by
  simp [split, List.splitAt_eq]

theorem text_split (o : Origin) :
    o.split.1.text = (StreamRestore.splitBuf o.text).1 ∧
      o.split.2.text = (StreamRestore.splitBuf o.text).2 := by
  obtain ⟨hbuf, -, -⟩ := splitBuf_spec o.text
  have h1 : o.split.1.text = (StreamRestore.splitBuf o.text).1 := by
    calc o.split.1.text
        = o.text.take (StreamRestore.splitBuf o.text).1.length := by
          simp only [split, List.splitAt_eq, text, List.map_take]
      _ = ((StreamRestore.splitBuf o.text).1 ++ (StreamRestore.splitBuf o.text).2).take
            (StreamRestore.splitBuf o.text).1.length := by rw [hbuf]
      _ = (StreamRestore.splitBuf o.text).1 := List.take_left
  refine ⟨h1, ?_⟩
  have h2 : o.split.1.text ++ o.split.2.text = o.text := by rw [← text_append, split_append]
  rw [h1] at h2
  exact List.append_cancel_left (h2.trans hbuf.symm)

end Origin

/-- The texts that the session emits are the restored texts of the emissions. -/
theorem restored_eq_emissions {s : StreamRestore} {held : Origin} (h : s.carry = held.text)
    (ds : Deltas) :
    restored s ds = (emissions held ds).map (fun e => (e.1, s.restore e.2.text)) := by
  induction ds generalizing s held with
  | nil =>
      rw [restored, emissions, List.map_singleton, StreamRestore.flush, h]
      split_ifs with hnil
      · rw [hnil, StreamRestore.restore_nil]
      · rfl
  | cons e ds ih =>
      obtain ⟨i, d⟩ := e
      obtain ⟨h1, h2⟩ := Origin.text_split (held ++ Origin.ofDelta i d)
      rw [Origin.text_append, Origin.text_ofDelta, ← h] at h1 h2
      rw [restored, emissions, List.map_cons, h1, ih (s := (s.feed d).2) h2.symm]
      rfl

/-! ### What is held back -/

theorem splitBuf_snd (buf : Text) : StreamRestore.splitBuf (StreamRestore.splitBuf buf).2 =
    ([], (StreamRestore.splitBuf buf).2) := by
  have hnil : StreamRestore.splitBuf [] = ([], []) := rfl
  unfold StreamRestore.splitBuf
  cases hcut : StreamRestore.cut buf with
  | none => exact hnil
  | some q =>
      obtain ⟨head, tail⟩ := q
      dsimp only
      split_ifs with hlen
      · obtain ⟨hfind, htest⟩ := Option.filter_eq_some_iff.mp hcut
        obtain ⟨rfl, rest, rfl, hrest⟩ := rfind_eq_some hfind
        have hcut' : StreamRestore.cut ('[' :: rest) = some ([], '[' :: rest) := by
          rw [StreamRestore.cut, ← List.nil_append ('[' :: rest), rfind_append [] hrest]
          exact Option.filter_eq_some_iff.mpr ⟨rfl, htest⟩
        rw [byteLen_append] at hlen
        dsimp only
        rw [hcut']
        dsimp only
        rw [if_pos]
        have h0 : byteLen [] = 0 := rfl
        omega
      · exact hnil

/-- Text that is held back is emitted as a whole. -/
theorem prefix_splitBuf {carry : Text} (h : StreamRestore.splitBuf carry = ([], carry)) (d : Text) :
    (StreamRestore.splitBuf (carry ++ d)).1 = [] ∨
      carry <+: (StreamRestore.splitBuf (carry ++ d)).1 := by
  by_cases hne : carry = []
  · exact Or.inr (by rw [hne]; exact List.nil_prefix)
  -- the text begins with its only bracket
  have hopen : ∃ rest, carry = '[' :: rest ∧ '[' ∉ rest := by
    unfold StreamRestore.splitBuf at h
    cases hcut : StreamRestore.cut carry with
    | none =>
        rw [hcut] at h
        exact absurd (congrArg Prod.fst h) hne
    | some q =>
        obtain ⟨head, tail⟩ := q
        rw [hcut] at h
        dsimp only at h
        split_ifs at h with hlen
        · obtain ⟨rfl, rfl⟩ := Prod.mk.inj h
          exact (rfind_eq_some (Option.filter_eq_some_iff.mp hcut).1).2
        · exact absurd (congrArg Prod.fst h) hne
  obtain ⟨rest, rfl, hrest⟩ := hopen
  unfold StreamRestore.splitBuf
  cases hcut : StreamRestore.cut ('[' :: rest ++ d) with
  | none => exact Or.inr (List.prefix_append _ _)
  | some q =>
      obtain ⟨head, tail⟩ := q
      dsimp only
      split_ifs with hlen
      · obtain ⟨hbuf, post, rfl, -⟩ := rfind_eq_some (Option.filter_eq_some_iff.mp hcut).1
        cases head with
        | nil => exact Or.inl rfl
        | cons c head =>
            -- the last bracket is not in the text that was held back
            obtain ⟨rfl, htail⟩ := List.cons.inj hbuf
            refine Or.inr (List.cons_prefix_cons.mpr ⟨rfl, ?_⟩)
            rcases List.prefix_or_prefix_of_prefix (List.prefix_append rest d)
              (⟨_, htail.symm⟩ : head <+: rest ++ d) with hpre | ⟨q, hq⟩
            · exact hpre
            · cases q with
              | nil => rw [← hq, List.append_nil]
              | cons x q =>
                  have hx : x :: q ++ d = '[' :: post := by
                    refine @List.append_cancel_left _ head _ _ ?_
                    rw [← List.append_assoc, hq]
                    exact htail
                  obtain ⟨rfl, -⟩ := List.cons.inj hx
                  exact absurd (hq ▸ List.mem_append_right _ List.mem_cons_self) hrest
      · exact Or.inr (List.prefix_append _ _)

namespace Origin

/-- Nothing is emitted while nothing arrives. -/
def Settled (o : Origin) : Prop := StreamRestore.splitBuf o.text = ([], o.text)

theorem settled_nil : Settled [] := rfl

theorem settled_split (o : Origin) : o.split.2.Settled := by
  unfold Settled
  rw [(text_split o).2]
  exact splitBuf_snd o.text

theorem split_of_settled {o : Origin} (h : o.Settled) : o.split = ([], o) := by
  have h1 : o.split.1 = [] := by
    rw [← List.map_eq_nil_iff (f := Prod.snd)]
    exact (text_split o).1.trans (congrArg Prod.fst h)
  have h2 := o.split_append
  rw [h1, List.nil_append] at h2
  exact Prod.ext h1 h2

/-- Of a buffer that goes on from what is held back, nothing is emitted or all of the latter. -/
theorem split_append_of_settled {o : Origin} (h : o.Settled) (o' : Origin) :
    (o ++ o').split.1 = [] ∨ o <+: (o ++ o').split.1 := by
  rcases prefix_splitBuf h o'.text with hnil | hpre
  · left
    rw [← List.map_eq_nil_iff (f := Prod.snd)]
    rw [← text_append] at hnil
    exact (text_split (o ++ o')).1.trans hnil
  · right
    have hlen := hpre.length_le
    rw [← text_append, ← (text_split (o ++ o')).1] at hlen
    simp only [text, List.length_map] at hlen
    have hsplit := split_append (o ++ o')
    exact List.prefix_of_prefix_length_le (List.prefix_append o o') ⟨_, hsplit⟩ hlen

end Origin

/-! ### One session for all choices -/

/-- Everything the client receives under an index comes from that index. -/
def Untangled (held : Origin) (ds : Deltas) : Prop := ∀ e ∈ emissions held ds, e.2.IsOf e.1

/-- While a delta arrives, only text of its own choice is held back; at the end, only text of
choice 0, under which it is flushed. -/
def Owned : Origin → Deltas → Prop
  | held, [] => held.IsOf (some 0)
  | held, (i, d) :: ds =>
      (d ≠ [] → held.IsOf i) ∧ Owned (held ++ Origin.ofDelta i d).split.2 ds

instance Owned.decide : (held : Origin) → (ds : Deltas) → Decidable (Owned held ds)
  | held, [] => inferInstanceAs (Decidable (held.IsOf (some 0)))
  | held, (i, d) :: ds =>
      have := Owned.decide (held ++ Origin.ofDelta i d).split.2 ds
      inferInstanceAs (Decidable ((d ≠ [] → held.IsOf i) ∧
        Owned (held ++ Origin.ofDelta i d).split.2 ds))

theorem untangled_nil (held : Origin) : Untangled held [] ↔ held.IsOf (some 0) := by
  simp [Untangled, emissions]

theorem untangled_cons (held : Origin) (i : Option ℕ) (d : Text) (ds : Deltas) :
    Untangled held ((i, d) :: ds) ↔ (held ++ Origin.ofDelta i d).split.1.IsOf i ∧
      Untangled (held ++ Origin.ofDelta i d).split.2 ds := by
  simp [Untangled, emissions]

/-- Text of two choices that is held back together is emitted together. -/
theorem not_untangled_of_mixed {held : Origin} (h : held.Settled) {c c' : Option ℕ × Char}
    (hc : c ∈ held) (hc' : c' ∈ held) (hne : c.1 ≠ c'.1) (ds : Deltas) : ¬ Untangled held ds := by
  induction ds generalizing held with
  | nil =>
      rw [untangled_nil]
      intro hof
      exact hne ((hof c hc).trans (hof c' hc').symm)
  | cons e ds ih =>
      obtain ⟨i, d⟩ := e
      rw [untangled_cons]
      rintro ⟨hof, hrest⟩
      rcases Origin.split_append_of_settled h (Origin.ofDelta i d) with hnil | hpre
      · have hall := Origin.split_append (held ++ Origin.ofDelta i d)
        rw [hnil, List.nil_append] at hall
        apply ih (Origin.settled_split _) _ _ hrest
        · rw [hall]; exact List.mem_append_left _ hc
        · rw [hall]; exact List.mem_append_left _ hc'
      · exact hne ((hof c (hpre.subset hc)).trans (hof c' (hpre.subset hc')).symm)

theorem Origin.IsOf.split {o : Origin} {i : Option ℕ} (h : o.IsOf i) :
    o.split.1.IsOf i ∧ o.split.2.IsOf i := by
  rw [← isOf_append, split_append]
  exact h

/-- **Provenance.** Under every index the client receives text of that index only, exactly when
the session never holds back text of another choice. -/
theorem untangled_iff_owned {held : Origin} (h : held.Settled) {j : Option ℕ} (hj : held.IsOf j)
    (ds : Deltas) : Untangled held ds ↔ Owned held ds := by
  induction ds generalizing held j with
  | nil => exact untangled_nil held
  | cons e ds ih =>
      obtain ⟨i, d⟩ := e
      rw [untangled_cons, Owned]
      by_cases hd : d = []
      · subst hd
        have hsplit : (held ++ Origin.ofDelta i []).split = ([], held) := by
          rw [show Origin.ofDelta i [] = [] from rfl, List.append_nil]
          exact Origin.split_of_settled h
        rw [hsplit, ih h hj]
        simp [Origin.IsOf]
      · by_cases hi : held.IsOf i
        · have hof := (Origin.isOf_append.mpr ⟨hi, Origin.isOf_ofDelta i d⟩).split
          rw [ih (Origin.settled_split _) hof.2]
          simp only [hof.1, true_and, hi, implies_true]
        · constructor
          · rintro ⟨hof, hrest⟩
            exfalso
            -- some held character and the new text are of different choices
            obtain ⟨c, hc, hci⟩ : ∃ c ∈ held, c.1 ≠ i := by
              by_contra hnone
              exact hi (fun c hc => by_contra fun hne => hnone ⟨c, hc, hne⟩)
            obtain ⟨x, d, rfl⟩ := List.exists_cons_of_ne_nil hd
            rcases Origin.split_append_of_settled h (Origin.ofDelta i (x :: d)) with hnil | hpre
            · have hall := Origin.split_append (held ++ Origin.ofDelta i (x :: d))
              rw [hnil, List.nil_append] at hall
              have hmem : c ∈ held ++ Origin.ofDelta i (x :: d) := List.mem_append_left _ hc
              have hmem' : (i, x) ∈ held ++ Origin.ofDelta i (x :: d) :=
                List.mem_append_right _ List.mem_cons_self
              rw [← hall] at hmem hmem'
              exact not_untangled_of_mixed (Origin.settled_split _) hmem hmem' hci ds hrest
            · exact hci (hof c (hpre.subset hc))
          · rintro ⟨hown, -⟩
            exact absurd (hown hd) hi

/-! ### A session of its own for every choice -/

/-- The characters that were sent for an index. -/
def Origin.under (i : Option ℕ) (o : Origin) : Origin := o.filter (fun c => c.1 = i)

theorem Origin.IsOf.under_self {o : Origin} {i : Option ℕ} (h : o.IsOf i) : o.under i = o :=
  List.filter_eq_self.mpr (fun c hc => decide_eq_true (h c hc))

theorem Origin.IsOf.under_of_ne {o : Origin} {i j : Option ℕ} (h : o.IsOf j) (hne : j ≠ i) :
    o.under i = [] := by
  apply List.filter_eq_nil_iff.mpr
  intro c hc
  rw [h c hc]
  simpa using hne

theorem feed_nil {o : Origin} (h : o.Settled) (s : StreamRestore) :
    ({ s with carry := o.text } : StreamRestore).feed [] = ([], { s with carry := o.text }) := by
  simp only [StreamRestore.feed, List.append_nil]
  rw [show StreamRestore.splitBuf o.text = ([], o.text) from h]
  dsimp only
  rw [StreamRestore.restore_nil]

/-- While every choice owns what is held back, each is restored as by a session of its own. -/
theorem restored_of_owned (s : StreamRestore) {held : Origin} (h : held.Settled) {j : Option ℕ}
    (hj : held.IsOf j) {ds : Deltas} (howned : Owned held ds) (i : Option ℕ) :
    (deltasUnder i (restored { s with carry := held.text } ds)).flatten =
      ({ s with carry := (held.under i).text } : StreamRestore).stream (deltasUnder i ds) := by
  induction ds generalizing held j with
  | nil =>
      have hof : held.IsOf (some 0) := howned
      rw [restored, deltasUnder_cons, deltasUnder_nil, StreamRestore.stream]
      by_cases hi : some 0 = i
      · subst hi
        rw [hof.under_self, if_pos rfl]
        simp
      · rw [hof.under_of_ne hi, if_neg hi]
        rfl
  | cons e ds ih =>
      obtain ⟨k, d⟩ := e
      obtain ⟨hown, hrest⟩ := howned
      rw [restored, deltasUnder_cons, deltasUnder_cons]
      by_cases hd : d = []
      · subst hd
        have hsplit : (held ++ Origin.ofDelta k []).split = ([], held) := by
          rw [show Origin.ofDelta k [] = [] from rfl, List.append_nil]
          exact Origin.split_of_settled h
        rw [hsplit] at hrest
        have hunder : (held.under i).Settled := by
          by_cases hji : j = i
          · rw [(hji ▸ hj : held.IsOf i).under_self]; exact h
          · rw [hj.under_of_ne hji]; exact Origin.settled_nil
        rw [feed_nil h]
        split_ifs with hk
        · rw [List.flatten_cons, List.nil_append, StreamRestore.stream, feed_nil hunder,
            List.nil_append]
          exact ih h hj hrest
        · exact ih h hj hrest
      · have hof := Origin.isOf_append.mpr ⟨hown hd, Origin.isOf_ofDelta k d⟩
        have hnew := (Origin.text_split (held ++ Origin.ofDelta k d)).2
        rw [Origin.text_append, Origin.text_ofDelta] at hnew
        have hfeed : (({ s with carry := held.text } : StreamRestore).feed d).2 =
            { s with carry := (held ++ Origin.ofDelta k d).split.2.text } := by
          rw [hnew]
          rfl
        have hih := ih (Origin.settled_split _) hof.split.2 hrest
        rw [hfeed]
        split_ifs with hk
        · subst hk
          rw [hof.split.2.under_self] at hih
          rw [(hown hd).under_self, List.flatten_cons, hih, StreamRestore.stream, hfeed]
        · rw [hof.split.2.under_of_ne hk] at hih
          rw [(hown hd).under_of_ne hk, hih]

/-! ### Restored per choice -/

/-- The events for the items of a provider, under the session of a request. -/
def respond (vault : Vault) (scope : Scope) (policy : String) (items : List Item) : List Event :=
  streamResponse (StreamState.new (StreamRestore.new vault scope policy)) items

theorem received_eq_emissions (vault : Vault) (scope : Scope) (policy : String)
    (items : List Item) (i : ℕ) :
    received i (respond vault scope policy items) = (deltasUnder (some i)
      ((emissions [] (fed items)).map
        (fun e => (e.1, deanonymize e.2.text vault scope policy)))).flatten := by
  unfold received respond
  rw [deltasUnder_streamResponse, @restored_eq_emissions _ [] rfl]
  rfl

/-- **A stream is restored per choice** exactly when its choices never share what is held back:
no delta arrives while text of another choice is held back, and what is held back at the end
was sent for choice 0.  A choice is restored as by a session of its own; over the vaults of
`sanitize` this is the restored text. -/
theorem streamsPerChoice_iff (vault : Vault) (scope : Scope) (policy : String)
    (items : List Item) :
    (((∀ i, received i (respond vault scope policy items) =
          (StreamRestore.new vault scope policy).stream (deltasUnder (some i) (fed items))) ∧
        Untangled [] (fed items)) ↔ Owned [] (fed items)) ∧
      (vault.WellFormed →
        (((∀ i, received i (respond vault scope policy items) =
            deanonymize (sent i items) vault scope policy) ∧
          Untangled [] (fed items)) ↔ Owned [] (fed items))) := by
  have hiff := untangled_iff_owned Origin.settled_nil (j := none) (by simp [Origin.IsOf])
    (fed items)
  have hown : Owned [] (fed items) → ∀ i, received i (respond vault scope policy items) =
      (StreamRestore.new vault scope policy).stream (deltasUnder (some i) (fed items)) := by
    intro howned i
    unfold received respond
    rw [deltasUnder_streamResponse]
    exact restored_of_owned (StreamRestore.new vault scope policy) Origin.settled_nil (j := none)
      (by simp [Origin.IsOf]) howned (some i)
  refine ⟨⟨fun h => hiff.mp h.2, fun h => ⟨hown h, hiff.mpr h⟩⟩, fun hvault => ?_⟩
  refine ⟨fun h => hiff.mp h.2, fun h => ⟨fun i => ?_, hiff.mpr h⟩⟩
  rw [hown h i, StreamRestore.stream_eq_restore hvault]
  rfl

/-- A chunk with a delta for one choice. -/
def choiceChunk (i : UInt64) (content : String) : Item :=
  .ok (.obj [("choices", .arr [.obj [("index", .num (.posInt i)),
    ("delta", .obj [("content", .str content.toList)])]])])

/-- A token of choice 0 that is cut in two, with a delta of choice 1 after it. -/
def sampleItems : List Item :=
  [choiceChunk 0 "to [EMAI", choiceChunk 0 "L_00000000000000ab00000000000000cd]",
    choiceChunk 1 "no mail"]

theorem streamsPerChoice_sample :
    (∀ i, received i (respond [(sampleToken, "a@b.ru".toList)] [(sampleToken, 1)] "restore"
          sampleItems) =
        deanonymize (sent i sampleItems) [(sampleToken, "a@b.ru".toList)] [(sampleToken, 1)]
          "restore") ∧
      Untangled [] (fed sampleItems) := by
  refine ((streamsPerChoice_iff _ _ _ sampleItems).2
    ⟨by decide, ?_, by decide, ?_, by decide⟩).mpr ?_
  · rintro e he
    obtain rfl := List.mem_singleton.mp he
    exact isToken_formatToken .email (171, 205)
  · rintro e he
    obtain rfl := List.mem_singleton.mp he
    exact ⟨by decide, by decide⟩
  · have hfed : fed sampleItems = [(some 0, "to [EMAI".toList),
        (some 0, "L_00000000000000ab00000000000000cd]".toList), (some 1, "no mail".toList)] := rfl
    rw [hfed]
    decide

/-- The session holds the bracket of choice 0 back and emits it under choice 1. -/
theorem stream_mixes_choices :
    ¬ ∀ (vault : Vault) (scope : Scope) (policy : String) (items : List Item), vault.WellFormed →
      (∀ i, received i (respond vault scope policy items) =
        deanonymize (sent i items) vault scope policy) ∧ Untangled [] (fed items) := by
  intro h
  obtain ⟨hall, -⟩ := h [] [] "restore" [choiceChunk 0 "a [", choiceChunk 1 "b!"]
    ⟨List.nodup_nil, by simp, by simp, by simp, by simp⟩
  have hone : received 1 (respond [] [] "restore" [choiceChunk 0 "a [", choiceChunk 1 "b!"]) =
      "[b!".toList := by decide
  have hsent : deanonymize (sent 1 [choiceChunk 0 "a [", choiceChunk 1 "b!"]) [] [] "restore" =
      "b!".toList := by decide
  have := hall 1
  rw [hone, hsent] at this
  exact absurd this (by decide)

end FirewallLLM.Dlp
