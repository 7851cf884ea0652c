import FirewallLLM.EgressPools
import FirewallLLM.SseReader

/-! # The readers of event streams and the grammar

Event streams by the grammar: events of lines with a field or a comment, each ended by a line
feed or by a carriage return and a line feed, and a blank line behind them.  The value of a field
begins behind one space, if there is one, and the data of an event are the values of its `data`
fields, joined by line feeds.

The readers of both gateways take every line that begins with `data: ` by itself; that of `httpx`
also cuts lines where `str.splitlines` does.  `rustReads_iff`, `pyReads_iff`: what they give of a
stream are the values of what is taken of its lines, up to `[DONE]`. -/

namespace FirewallLLM.Sse

open Dlp (Text)
open FirewallLLM.Core (isWhitespace trim)

/-! ### The grammar -/

/-- A line of an event. -/
inductive Line where
  | comment (text : Text)
  | field (name : Text) (space : Bool) (value : Text)
  | bare (name : Text)

namespace Line

def text : Line → Text
  | comment text => ':' :: text
  | field name space value => name ++ ':' :: (if space then ' ' :: value else value)
  | bare name => name

/-- The line can be read as it was meant. -/
def Valid (l : Line) : Prop :=
  '\n' ∉ l.text ∧ '\r' ∉ l.text ∧ match l with
    | comment _ => True
    | field name space value => name ≠ [] ∧ ':' ∉ name ∧ (space = false → value.head? ≠ some ' ')
    | bare name => name ≠ [] ∧ ':' ∉ name

instance : (l : Line) → Decidable l.Valid
  | comment _ => inferInstanceAs (Decidable (_ ∧ _ ∧ True))
  | field _ _ _ => inferInstanceAs (Decidable (_ ∧ _ ∧ _ ∧ _ ∧ _))
  | bare _ => inferInstanceAs (Decidable (_ ∧ _ ∧ _ ∧ _))

/-- What the line adds to the data. -/
def piece? : Line → Option Text
  | comment _ => none
  | field name _ value => if name = "data".toList then some value else none
  | bare name => if name = "data".toList then some [] else none

end Line

/-- An event: its lines, of which some end with a carriage return too, and the blank line.  The
first one of a stream may have a byte order mark in front. -/
structure Event where
  bom : Bool
  lines : List (Line × Bool)
  blank : Bool
  valid : ∀ l ∈ lines, l.1.Valid

/-- The lines of an event, with the byte order mark that may be in front of the first one. -/
def markLines (bom : Bool) : List Line → List (Bool × Line)
  | [] => []
  | l :: ls => (bom, l) :: ls.map (fun l => (false, l))

/-- A text behind its byte order mark, if it has one. -/
def behindMark (bom : Bool) (text : Text) : Text := if bom then Char.ofNat 0xFEFF :: text else text

namespace Event

/-- The lines, and which of them has the mark in front. -/
def marked (e : Event) : List (Bool × Line) := markLines e.bom (e.lines.map Prod.fst)

/-- The lines as they are sent, with the blank one, and whether a carriage return is at their
end. -/
def sent (e : Event) : List (Text × Bool) :=
  match e.lines with
  | [] => [(behindMark e.bom [], e.blank)]
  | l :: ls => (behindMark e.bom l.1.text, l.2) ::
      (ls.map (fun l => (l.1.text, l.2)) ++ [([], e.blank)])

/-- The data, if there are any. -/
def data? (e : Event) : Option Text :=
  let pieces := e.lines.filterMap (fun l => l.1.piece?)
  if pieces = [] then none else some (['\n'].intercalate pieces)

/-- The document of an event. -/
def docs {V : Type} (parse : Text → Option V) (e : Event) : List V := (e.data?.bind parse).toList

end Event

/-- Some events, and one with `[DONE]`. -/
structure Stream where
  events : List Event
  last : Event
  last_data : last.data? = some doneText
  bom_first : ∀ e ∈ (events ++ [last]).tail, e.bom = false

namespace Stream

/-- The lines of all events. -/
def sent (s : Stream) : List (Text × Bool) := (s.events ++ [s.last]).flatMap Event.sent

end Stream

/-- The end of a line. -/
def lineEnd (cr : Bool) : Text := if cr then ['\r', '\n'] else ['\n']

/-- The text of some lines. -/
def textOf (ls : List (Text × Bool)) : Text := ls.flatMap (fun l => l.1 ++ lineEnd l.2)

/-! ### Payloads -/

section Payloads

variable {V : Type} (parse : Text → Option V)

/-- The values of some payloads, up to `[DONE]`. -/
def consume (payloads : List Text) : List V := (payloads.takeWhile (· ≠ doneText)).filterMap parse

variable {parse}

theorem consume_cons (p : Text) (ps : List Text) : consume parse (p :: ps) =
    if p = doneText then [] else (parse p).toList ++ consume parse ps := by
  unfold consume
  rw [List.takeWhile_cons]
  by_cases hp : p = doneText
  · simp [hp]
  · rw [if_pos (decide_eq_true hp), if_neg hp, List.filterMap_cons]
    cases parse p <;> rfl

theorem consume_append_of_mem {ps : List Text} (h : doneText ∈ ps) (qs : List Text) :
    consume parse (ps ++ qs) = consume parse ps := by
  induction ps with
  | nil => cases h
  | cons p ps ih =>
      by_cases hp : p = doneText
      · rw [List.cons_append, consume_cons, consume_cons, if_pos hp, if_pos hp]
      · have hmem : doneText ∈ ps := (List.mem_cons.mp h).resolve_left (Ne.symm hp)
        rw [List.cons_append, consume_cons, consume_cons, ih hmem]

theorem consume_append {ps : List Text} (h : doneText ∉ ps) (qs : List Text) :
    consume parse (ps ++ qs) = consume parse ps ++ consume parse qs := by
  have hall : ∀ p ∈ ps, decide (p ≠ doneText) = true := fun p hp =>
    decide_eq_true fun heq => h (heq ▸ hp)
  have hps : ps.takeWhile (· ≠ doneText) = ps := List.takeWhile_eq_self_iff.mpr hall
  rw [consume, consume, consume, List.takeWhile_append_of_pos hall, List.filterMap_append, hps]

/-- What is neither a document nor `[DONE]` is passed over. -/
def Silent (parse : Text → Option V) (p : Text) : Prop := p ≠ doneText ∧ parse p = none

theorem consume_silent {ps : List Text} (h : ∀ p ∈ ps, Silent parse p) : consume parse ps = [] :=
  List.filterMap_eq_nil_iff.mpr fun p hp => (h p (List.takeWhile_subset _ hp)).2

theorem done_not_mem {ps : List Text} (h : ∀ p ∈ ps, Silent parse p) : doneText ∉ ps :=
  fun hmem => (h _ hmem).1 rfl

theorem exists_of_mem_consume {ps : List Text} {v : V} (h : v ∈ consume parse ps) :
    ∃ p ∈ ps, parse p = some v := by
  obtain ⟨p, hp, hv⟩ := List.mem_filterMap.mp h
  exact ⟨p, List.takeWhile_subset _ hp, hv⟩

/-- The payloads give the value, and go on. -/
def ReadsOne (parse : Text → Option V) (ps : List Text) (v : V) : Prop :=
  consume parse ps = [v] ∧ doneText ∉ ps

/-- A text that has the value is read among texts that are passed over. -/
theorem readsOne_among {before after : List Text} {p : Text} {v : V}
    (hbefore : ∀ q ∈ before, Silent parse q) (hafter : ∀ q ∈ after, Silent parse q)
    (hdone : p ≠ doneText) (hparse : parse p = some v) :
    ReadsOne parse (before ++ ([p] ++ after)) v := by
  constructor
  · rw [consume_append (done_not_mem hbefore), consume_silent hbefore, List.nil_append,
      List.singleton_append, consume_cons, if_neg hdone, hparse, consume_silent hafter]
    rfl
  · rw [List.mem_append, List.singleton_append, List.mem_cons, not_or, not_or]
    exact ⟨done_not_mem hbefore, hdone.symm, done_not_mem hafter⟩

/-! Each of a list of texts has one value.  If a text can only be read right or without its value,
exactly the values are read if each text is read right: what has been read too early cannot be
made good. -/

variable {α : Type} {payloads : α → List Text} {docs : α → List V} {last : List Text}

/-- The text has one value, and is read right if that is among what is read. -/
def Sound (parse : Text → Option V) (ps : List Text) (docs : List V) : Prop :=
  ∃ v, docs = [v] ∧ (v ∈ consume parse ps → ReadsOne parse ps v)

theorem not_early (hlast : consume parse last = []) {es : List α}
    (hsound : ∀ e ∈ es, Sound parse (payloads e) (docs e)) {early : List V} (hearly : early ≠ []) :
    consume parse (es.flatMap payloads ++ last) ≠ early ++ es.flatMap docs := by
  induction es generalizing early with
  | nil =>
      intro heq
      rw [List.flatMap_nil, List.nil_append, hlast, List.flatMap_nil, List.append_nil] at heq
      exact hearly heq.symm
  | cons e es ih =>
      obtain ⟨⟨v, hdocs, hfirst⟩, hrest⟩ := List.forall_mem_cons.mp hsound
      -- with the early values in front, those of the first text would be too many
      have hlength : ∀ rest, consume parse (payloads e) ≠ early ++ v :: rest := by
        intro rest heq
        have hown := (hfirst (heq ▸ List.mem_append_right _ List.mem_cons_self)).1
        rw [hown] at heq
        have hlen := congrArg List.length heq
        have hpos := List.length_pos_iff.mpr hearly
        simp only [List.length_append, List.length_cons, List.length_nil] at hlen
        omega
      intro heq
      rw [List.flatMap_cons, List.append_assoc, List.flatMap_cons, hdocs,
        List.singleton_append] at heq
      by_cases hdone : doneText ∈ payloads e
      · rw [consume_append_of_mem hdone] at heq
        exact hlength _ heq
      · rw [consume_append hdone] at heq
        rcases List.append_eq_append_iff.mp heq with ⟨more, hmore, hread⟩ | ⟨extra, hextra, hread⟩
        · exact ih hrest (List.append_ne_nil_of_right_ne_nil more (List.cons_ne_nil v []))
            (by simpa using hread)
        · cases extra with
          | nil =>
              rw [List.nil_append] at hread
              exact ih hrest (List.cons_ne_nil v []) hread.symm
          | cons v' extra =>
              obtain rfl := (List.cons_eq_cons.mp hread).1
              exact hlength _ hextra

theorem consume_flatMap_iff (hlast : consume parse last = []) {es : List α}
    (hsound : ∀ e ∈ es, Sound parse (payloads e) (docs e)) :
    consume parse (es.flatMap payloads ++ last) = es.flatMap docs ↔
      ∀ e ∈ es, ∀ v ∈ docs e, ReadsOne parse (payloads e) v := by
  induction es with
  | nil => simpa using hlast
  | cons e es ih =>
      obtain ⟨⟨v, hdocs, hfirst⟩, hrest⟩ := List.forall_mem_cons.mp hsound
      rw [List.flatMap_cons, List.append_assoc, List.flatMap_cons, List.forall_mem_cons, ← ih hrest,
        hdocs, List.forall_mem_singleton, List.singleton_append]
      constructor
      · intro heq
        have hown : ReadsOne parse (payloads e) v := by
          refine hfirst ?_
          by_cases hdone : doneText ∈ payloads e
          · rw [consume_append_of_mem hdone] at heq
            rw [heq]
            exact List.mem_cons_self
          · rw [consume_append hdone] at heq
            cases hread : consume parse (payloads e) with
            | nil =>
                rw [hread, List.nil_append] at heq
                exact absurd heq (not_early hlast hrest (List.cons_ne_nil v []))
            | cons v' vs =>
                rw [hread] at heq
                obtain rfl := (List.cons_eq_cons.mp heq).1
                exact List.mem_cons_self
        refine ⟨hown, ?_⟩
        rw [consume_append hown.2, hown.1] at heq
        exact (List.cons_eq_cons.mp heq).2
      · rintro ⟨hown, hread⟩
        rw [consume_append hown.2, hown.1, hread]
        rfl

end Payloads

/-! ### The reader of the Rust gateway -/

section Rust

variable (parse : Text → Option Json)

/-- The payload of a line. -/
def rustData (line : Text) : List Text := ((trim line).dropPrefix? dataPrefix).toList

variable {parse}

/-- The loop of `chat_stream` takes the values of the payloads. -/
theorem readLines_eq (ls : List Text) : readLines parse (ls.map some) =
    (consume parse (ls.flatMap rustData)).map .ok := by
  induction ls with
  | nil => rfl
  | cons l ls ih =>
      rw [List.map_cons, List.flatMap_cons, readLines, readLine, rustData]
      cases (trim l).dropPrefix? dataPrefix with
      | none => exact ih
      | some data =>
          rw [Option.toList_some, List.singleton_append, consume_cons]
          dsimp only
          split_ifs with hdone
          · rfl
          · cases parse data with
            | none => exact ih
            | some v => exact congrArg _ ih

theorem rustData_append {w : Text} (hw : ∀ c ∈ w, isWhitespace c = true) (l : Text) :
    rustData (l ++ w) = rustData l := by
  rw [rustData, trim, stripWith_append hw]
  rfl

theorem chatStream_eq {reads : List (List UInt8)} {ls : List (Text × Bool)}
    (hls : ∀ l ∈ ls, '\n' ∉ l.1) (hreads : reads.flatten = Utf8.encode (textOf ls)) :
    chatStream parse reads = (consume parse (ls.flatMap (fun l => rustData l.1))).map .ok := by
  set returns := ls.map (fun l => l.1 ++ if l.2 then ['\r'] else []) with hreturns
  have hreturn : ∀ cr : Bool, ∀ c ∈ (if cr then ['\r'] else []), c = '\r' := by
    intro cr c hc
    cases cr with
    | true => exact List.mem_singleton.mp hc
    | false => cases hc
  have hline : ∀ l ∈ returns, '\n' ∉ l := by
    intro l hl hmem
    obtain ⟨sent, hsent, rfl⟩ := List.mem_map.mp hl
    rcases List.mem_append.mp hmem with h | h
    · exact hls sent hsent h
    · exact absurd (hreturn _ _ h) (by decide)
  have htext : textOf ls = returns.flatMap (· ++ ['\n']) := by
    rw [textOf, hreturns, List.flatMap_map]
    refine congrArg (List.flatMap · ls) (funext fun l => ?_)
    obtain ⟨t, cr⟩ := l
    cases cr <;> simp [lineEnd]
  have hdata : returns.flatMap rustData = ls.flatMap (fun l => rustData l.1) := by
    rw [hreturns, List.flatMap_map]
    refine congrArg (List.flatMap · ls) (funext fun l => rustData_append (fun c hc => ?_) l.1)
    rw [hreturn _ _ hc]
    decide
  have hlines := lines_encode hline []
  rw [List.append_nil] at hlines
  rw [chatStream_eq_readLines, hreads, htext, hlines]
  have hnil : (LineStream.lines (10 : UInt8) []).map Utf8.decode = [] := rfl
  rw [hnil, List.append_nil, readLines_eq, hdata]

end Rust

/-! ### The reader of the Python gateway -/

/-- Where `str.splitlines` cuts. -/
def isBreak (c : Char) : Bool :=
  (0x0A ≤ c.toNat && c.toNat ≤ 0x0D) || (0x1C ≤ c.toNat && c.toNat ≤ 0x1E) || c.toNat = 0x85 ||
    c.toNat = 0x2028 || c.toNat = 0x2029

def splitFrom : Text → Text → List Text
  | gathered, [] => if gathered = [] then [] else [gathered]
  | gathered, '\r' :: '\n' :: cs => gathered :: splitFrom [] cs
  | gathered, c :: cs =>
      if isBreak c then gathered :: splitFrom [] cs else splitFrom (gathered ++ [c]) cs

/-- The lines of a response, cut as `str.splitlines` does. -/
def splitlines (s : Text) : List Text := splitFrom [] s

/-- The pieces of a line of the stream. -/
def piecesFrom (gathered : Text) : Text → List Text
  | [] => [gathered]
  | c :: cs => if isBreak c then gathered :: piecesFrom [] cs else piecesFrom (gathered ++ [c]) cs

section Python

variable (r : Py.LineReader)

/-- The payloads of a line. -/
def pyData (line : Text) : List Text := (piecesFrom [] line).filterMap r.data?

variable {r}

theorem splitFrom_cons {c : Char} (hc : c ≠ '\r') (gathered cs : Text) :
    splitFrom gathered (c :: cs) =
      if isBreak c then gathered :: splitFrom [] cs else splitFrom (gathered ++ [c]) cs := by
  rw [splitFrom]
  intro cs' hcr
  exact absurd hcr hc

theorem splitFrom_line {l : Text} (h : '\r' ∉ l) (gathered : Text) (cr : Bool) (rest : Text) :
    splitFrom gathered (l ++ lineEnd cr ++ rest) = piecesFrom gathered l ++ splitFrom [] rest := by
  induction l generalizing gathered with
  | nil =>
      cases cr with
      | true => rfl
      | false => exact splitFrom_cons (by decide) gathered rest
  | cons c l ih =>
      obtain ⟨hc, hl⟩ := not_or.mp (mt List.mem_cons.mpr h)
      rw [List.cons_append, List.cons_append, splitFrom_cons (Ne.symm hc), piecesFrom]
      split_ifs
      · rw [ih hl]
        rfl
      · exact ih hl _

theorem splitlines_textOf {ls : List (Text × Bool)} (h : ∀ l ∈ ls, '\r' ∉ l.1) :
    splitlines (textOf ls) = ls.flatMap (fun l => piecesFrom [] l.1) := by
  induction ls with
  | nil => rfl
  | cons l ls ih =>
      obtain ⟨hl, hls⟩ := List.forall_mem_cons.mp h
      rw [textOf, List.flatMap_cons, splitlines, splitFrom_line hl, List.flatMap_cons, ← ih hls]
      rfl

theorem read_eq (ls : List Text) : (r.read ls).1 = consume r.loads (ls.filterMap r.data?) := by
  induction ls with
  | nil => rfl
  | cons l ls ih =>
      rw [Py.LineReader.read, List.filterMap_cons]
      cases r.data? l with
      | none => exact ih
      | some data =>
          dsimp only
          have htext : "[DONE]".toList = doneText := rfl
          rw [consume_cons, htext]
          by_cases hdone : data = doneText
          · rw [if_pos hdone, if_pos hdone]
          · rw [if_neg hdone, if_neg hdone]
            cases r.loads data with
            | none => exact ih
            | some chunk => exact congrArg _ ih

theorem read_splitlines {ls : List (Text × Bool)} (h : ∀ l ∈ ls, '\r' ∉ l.1) :
    (r.read (splitlines (textOf ls))).1 = consume r.loads (ls.flatMap (fun l => pyData r l.1)) := by
  rw [splitlines_textOf h, read_eq, List.filterMap_flatMap]
  rfl

end Python

/-! ### The lines of a stream -/

/-- What a reader takes of the lines of an event. -/
def Event.taken (take : Text → List Text) (e : Event) : List Text :=
  e.marked.flatMap (fun l => take (behindMark l.1 l.2.text))

theorem Event.flatMap_sent {take : Text → List Text} (hblank : ∀ bom, take (behindMark bom []) = [])
    (e : Event) : e.sent.flatMap (fun l => take l.1) = e.taken take := by
  have hnil : take [] = [] := hblank false
  unfold Event.sent Event.taken Event.marked
  cases e.lines with
  | nil => exact (List.append_nil _).trans (hblank e.bom)
  | cons l ls =>
      rw [List.map_cons, markLines, List.flatMap_cons, List.flatMap_cons, List.flatMap_append,
        List.flatMap_singleton, hnil, List.append_nil, List.flatMap_map, List.map_map,
        List.flatMap_map]
      rfl

theorem Stream.flatMap_sent {take : Text → List Text}
    (hblank : ∀ bom, take (behindMark bom []) = []) (s : Stream) :
    s.sent.flatMap (fun l => take l.1) = s.events.flatMap (Event.taken take) ++
      s.last.taken take := by
  rw [Stream.sent, List.flatMap_assoc, List.flatMap_append, List.flatMap_singleton,
    Event.flatMap_sent hblank]
  exact congrArg (List.flatMap · s.events ++ _) (funext (Event.flatMap_sent hblank))

theorem Event.sent_clean (e : Event) : ∀ l ∈ e.sent, '\n' ∉ l.1 ∧ '\r' ∉ l.1 := by
  have hmark : ∀ bom text, '\n' ∉ text ∧ '\r' ∉ text →
      '\n' ∉ behindMark bom text ∧ '\r' ∉ behindMark bom text := by
    intro bom text htext
    cases bom with
    | false => exact htext
    | true =>
        have hne : Char.ofNat 0xFEFF ≠ '\n' ∧ Char.ofNat 0xFEFF ≠ '\r' := by decide
        simp [behindMark, hne.1.symm, hne.2.symm, htext]
  have hnil : '\n' ∉ ([] : Text) ∧ '\r' ∉ ([] : Text) := ⟨List.not_mem_nil, List.not_mem_nil⟩
  have hvalid : ∀ l ∈ e.lines, '\n' ∉ l.1.text ∧ '\r' ∉ l.1.text := fun l hl =>
    ⟨(e.valid l hl).1, (e.valid l hl).2.1⟩
  unfold Event.sent
  cases hlines : e.lines with
  | nil => exact List.forall_mem_singleton.mpr (hmark e.bom [] hnil)
  | cons l ls =>
      rw [hlines] at hvalid
      obtain ⟨hfirst, hrest⟩ := List.forall_mem_cons.mp hvalid
      refine List.forall_mem_cons.mpr ⟨hmark e.bom _ hfirst, List.forall_mem_append.mpr ⟨?_, ?_⟩⟩
      · exact List.forall_mem_map.mpr hrest
      · exact List.forall_mem_singleton.mpr hnil

theorem Stream.sent_clean (s : Stream) : ∀ l ∈ s.sent, '\n' ∉ l.1 ∧ '\r' ∉ l.1 := by
  intro l hl
  obtain ⟨e, -, he⟩ := List.mem_flatMap.mp hl
  exact e.sent_clean l he

/-- The text of a stream. -/
def Stream.text (s : Stream) : Text := textOf s.sent

/-- The Rust gateway reads exactly the documents of the stream, wherever it is cut. -/
def RustReads (parse : Text → Option Json) (s : Stream) : Prop :=
  ∀ reads : List (List UInt8), reads.flatten = Utf8.encode s.text →
    chatStream parse reads = (s.events.flatMap (Event.docs parse)).map .ok

/-- The Python gateway reads exactly the documents of the stream. -/
def PyReads (r : Py.LineReader) (s : Stream) : Prop :=
  (r.read (splitlines s.text)).1 = s.events.flatMap (Event.docs r.loads)

/-- Both readers give exactly the documents of a stream. -/
def ReadsDocuments (parse : Text → Option Json) (r : Py.LineReader) (s : Stream) : Prop :=
  RustReads parse s ∧ PyReads r s

theorem rustReads_iff (parse : Text → Option Json) (s : Stream) : RustReads parse s ↔
    consume parse (s.events.flatMap (Event.taken rustData) ++ s.last.taken rustData) =
      s.events.flatMap (Event.docs parse) := by
  have hlf : ∀ l ∈ s.sent, '\n' ∉ l.1 := fun l hl => (s.sent_clean l hl).1
  have hblank : ∀ bom, rustData (behindMark bom []) = [] := by decide
  rw [← Stream.flatMap_sent hblank, RustReads]
  constructor
  · intro h
    have hone := h [Utf8.encode (textOf s.sent)] (List.flatten_singleton ..)
    rw [chatStream_eq hlf (List.flatten_singleton ..)] at hone
    exact List.map_injective_iff.mpr (fun _ _ heq => Except.ok.inj heq) hone
  · intro h reads hreads
    rw [chatStream_eq hlf hreads, h]

theorem pyReads_iff (r : Py.LineReader) (s : Stream) : PyReads r s ↔
    consume r.loads (s.events.flatMap (Event.taken (pyData r)) ++ s.last.taken (pyData r)) =
      s.events.flatMap (Event.docs r.loads) := by
  have hcr : ∀ l ∈ s.sent, '\r' ∉ l.1 := fun l hl => (s.sent_clean l hl).2
  have hblank : ∀ bom, pyData r (behindMark bom []) = [] := fun bom => by cases bom <;> rfl
  rw [← Stream.flatMap_sent hblank, PyReads, Stream.text, read_splitlines hcr]

end FirewallLLM.Sse
