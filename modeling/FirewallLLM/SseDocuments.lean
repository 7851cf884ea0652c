import FirewallLLM.SseGrammar

/-! # The documents of event streams

Events that carry a document each.  A reader takes parts of the values of data lines, each by
itself, so that a document over several lines is lost; `grammar_iff`: the documents of a stream are
read if and only if each is on one line, behind a space. -/

namespace FirewallLLM.Sse

open Dlp (Text)
open FirewallLLM.Core (isWhitespace trim)

/-! ### Documents -/

/-- The white space of JSON. -/
def isJsonSpace (c : Char) : Bool := c = ' ' || c = '\t' || c = '\n' || c = '\r'

/-- What the readers strip, or cut at. -/
def gap (r : Py.LineReader) (c : Char) : Bool := isWhitespace c || r.unicode.space c || isBreak c

/-- Nothing but gaps. -/
def Blank (r : Py.LineReader) (s : Text) : Prop := ∀ c ∈ s, gap r c = true

/-- What is left out in front of a part of a text and behind it is divided from it by gaps. -/
def Apart (r : Py.LineReader) (a b : Text) : Prop :=
  (∀ c ∈ a.getLast?, gap r c = true) ∧ ∀ c ∈ b.head?, gap r c = true

/-- A reader of JSON. -/
structure JsonReader {V : Type} (r : Py.LineReader) (parse : Text → Option V) : Prop where
  done : parse doneText = none
  blank : ∀ p, Blank r p → parse p = none

/-- A text that a reader of JSON accepts.  White space around a text does not change its value, and
no part of the text alone has its value; so it is if no object in it has a name twice. -/
structure IsDocument {V : Type} (r : Py.LineReader) (parse : Text → Option V) (d : Text) :
    Prop where
  accepted : (parse d).isSome
  ends : ∀ a p b, d = a ++ p ++ b → Blank r (a ++ b) → ∀ c ∈ a ++ b, isJsonSpace c = true
  whole : ∀ a p b, d = a ++ p ++ b → Apart r a b →
    (parse p = parse d ↔ ∀ c ∈ a ++ b, isJsonSpace c = true)

/-- Both are readers of JSON, and `str.isspace` is false of what can be seen. -/
structure Readers (parse : Text → Option Json) (r : Py.LineReader) : Prop where
  rust : JsonReader r parse
  python : JsonReader r r.loads
  visible : ∀ c : Char, 0x20 < c.toNat → c.toNat < 0x7F → r.unicode.space c = false

/-- The event carries a document, for both readers. -/
def Event.Carries (parse : Text → Option Json) (r : Py.LineReader) (e : Event) : Prop :=
  ∃ d, e.data? = some d ∧ IsDocument r parse d ∧ IsDocument r r.loads d

/-- What a reader takes of comments and other fields is passed over. -/
def Event.Quiet {V : Type} (parse : Text → Option V) (take : Text → List Text) (e : Event) : Prop :=
  ∀ l ∈ e.marked, l.2.piece? = none → ∀ p ∈ take (behindMark l.1 l.2.text), Silent parse p

def Stream.Quiet {V : Type} (parse : Text → Option V) (take : Text → List Text) (s : Stream) :
    Prop :=
  ∀ e ∈ s.events ++ [s.last], e.Quiet parse take

/-- The data are on one line, behind a space and no byte order mark; the other data lines are
blank. -/
def Event.OnOneLine (r : Py.LineReader) (e : Event) (value : Text) : Prop :=
  ∃ pre post, e.lines.map Prod.fst = pre ++ .field "data".toList true value :: post ∧
    (e.bom = true → pre ≠ []) ∧ ∀ l ∈ pre ++ post, ∀ piece ∈ l.piece?, Blank r piece

section Document

variable {r : Py.LineReader}

theorem gap_of_isJsonSpace {c : Char} (h : isJsonSpace c = true) : gap r c = true := by
  have hwhite : isWhitespace c = true := by
    simp only [isJsonSpace, Bool.or_eq_true, decide_eq_true_eq] at h
    rcases h with ((rfl | rfl) | rfl) | rfl <;> decide
  rw [gap, hwhite, Bool.true_or, Bool.true_or]

theorem Readers.not_gap {parse : Text → Option Json} (h : Readers parse r) {c : Char}
    (hlow : 0x20 < c.toNat) (hhigh : c.toNat < 0x7F) : gap r c = false := by
  rw [gap, h.visible c hlow hhigh]
  simp only [isWhitespace, isBreak, Bool.or_false, Bool.or_eq_false_iff, Bool.and_eq_false_iff,
    decide_eq_false_iff_not]
  omega

theorem Apart.trans {a a' b b' : Text} (h : Apart r a b) (h' : Apart r a' b') :
    Apart r (a ++ a') (b' ++ b) := by
  constructor
  · intro c hc
    rw [List.getLast?_append] at hc
    cases hlast : a'.getLast? with
    | none =>
        rw [hlast, Option.none_or] at hc
        exact h.1 c hc
    | some c' =>
        rw [hlast, Option.some_or] at hc
        exact h'.1 c (hlast ▸ hc)
  · intro c hc
    rw [List.head?_append] at hc
    cases hhead : b'.head? with
    | none =>
        rw [hhead, Option.none_or] at hc
        exact h.2 c hc
    | some c' =>
        rw [hhead, Option.some_or] at hc
        exact h'.2 c (hhead ▸ hc)

theorem Apart.eq {a p b d : Text} (h : Apart r a b) (hd : d = a ++ p ++ b)
    (hclean : ∀ c ∈ d, gap r c = false) : a = [] ∧ b = [] ∧ p = d := by
  have ha : a = [] := by
    rcases List.eq_nil_or_concat a with rfl | ⟨a', c, rfl⟩
    · rfl
    · have hgap := h.1 c (by simp)
      rw [hclean c (by rw [hd]; simp)] at hgap
      cases hgap
  have hb : b = [] := by
    cases b with
    | nil => rfl
    | cons c b' =>
        have hgap := h.2 c (by simp)
        rw [hclean c (by rw [hd]; simp)] at hgap
        cases hgap
  subst ha hb
  exact ⟨rfl, rfl, by simpa using hd.symm⟩

/-- A text without gaps that is accepted is a document. -/
theorem isDocument_of_clean {V : Type} {parse : Text → Option V} {d : Text}
    (haccepted : (parse d).isSome) (hclean : ∀ c ∈ d, gap r c = false) :
    IsDocument r parse d where
  accepted := haccepted
  ends := by
    rintro a p b rfl hblank c hc
    have hgap := hblank c hc
    have hmem : c ∈ a ++ p ++ b := by
      simp only [List.mem_append] at hc ⊢
      tauto
    rw [hclean c hmem] at hgap
    cases hgap
  whole := by
    intro a p b hd hapart
    obtain ⟨rfl, rfl, rfl⟩ := hapart.eq hd hclean
    simp

theorem blank_append {a b : Text} : Blank r (a ++ b) ↔ Blank r a ∧ Blank r b :=
  List.forall_mem_append

theorem apart_of_blank {a b : Text} (h : Blank r (a ++ b)) : Apart r a b :=
  ⟨fun c hc => h c (List.mem_append_left _ (List.mem_of_getLast? hc)),
    fun c hc => h c (List.mem_append_right _ (List.mem_of_head? hc))⟩

theorem intercalate_split (sep w : Text) (ps qs : List Text) :
    sep.intercalate (ps ++ w :: qs) =
      ps.flatMap (· ++ sep) ++ w ++ qs.flatMap (sep ++ ·) := by
  induction ps with
  | nil =>
      induction qs generalizing w with
      | nil => simp
      | cons q qs ih =>
          have hq := ih q
          rw [List.nil_append] at hq
          simp [List.intercalate_cons_cons, hq]
  | cons p ps ih =>
      rw [List.cons_append, List.intercalate_cons_of_ne_nil (by simp), ih]
      simp

theorem data_split {e : Event} {pre post : List Line} {l : Line} {w : Text}
    (hlines : e.lines.map Prod.fst = pre ++ l :: post) (hw : l.piece? = some w) :
    e.data? = some ((pre.filterMap Line.piece?).flatMap (· ++ ['\n']) ++ w ++
      (post.filterMap Line.piece?).flatMap (['\n'] ++ ·)) := by
  have hpieces : e.lines.filterMap (fun l => l.1.piece?) =
      pre.filterMap Line.piece? ++ w :: post.filterMap Line.piece? := by
    have hmap : e.lines.filterMap (fun l => l.1.piece?) =
        (e.lines.map Prod.fst).filterMap Line.piece? := by
      rw [List.filterMap_map]
      rfl
    rw [hmap, hlines, List.filterMap_append, List.filterMap_cons_some hw]
  have hne : pre.filterMap Line.piece? ++ w :: post.filterMap Line.piece? ≠ [] := by simp
  rw [Event.data?, hpieces, if_neg hne, intercalate_split]

theorem apart_lines (ps qs : List Text) :
    Apart r (ps.flatMap (· ++ ['\n'])) (qs.flatMap (['\n'] ++ ·)) := by
  have hfeed : gap r '\n' = true := gap_of_isJsonSpace (by decide)
  constructor
  · intro c hc
    induction ps using List.reverseRecOn with
    | nil => cases hc
    | append_singleton ps p =>
        rw [List.flatMap_append, List.flatMap_singleton, ← List.append_assoc,
          List.getLast?_concat] at hc
        obtain rfl := Option.some.inj hc
        exact hfeed
  · intro c hc
    cases qs with
    | nil => cases hc
    | cons q qs =>
        obtain rfl := Option.some.inj hc
        exact hfeed

theorem blank_lines {pre post : List Line} :
    Blank r ((pre.filterMap Line.piece?).flatMap (· ++ ['\n']) ++
        (post.filterMap Line.piece?).flatMap (['\n'] ++ ·)) ↔
      ∀ l ∈ pre ++ post, ∀ piece ∈ l.piece?, Blank r piece := by
  have hfeed : gap r '\n' = true := gap_of_isJsonSpace (by decide)
  constructor
  · intro h l hl piece hpiece c hc
    rcases List.mem_append.mp hl with hl | hl
    · refine h c (List.mem_append_left _ (List.mem_flatMap.mpr ⟨piece, ?_, ?_⟩))
      · exact List.mem_filterMap.mpr ⟨l, hl, hpiece⟩
      · exact List.mem_append_left _ hc
    · refine h c (List.mem_append_right _ (List.mem_flatMap.mpr ⟨piece, ?_, ?_⟩))
      · exact List.mem_filterMap.mpr ⟨l, hl, hpiece⟩
      · exact List.mem_append_right _ hc
  · intro h c hc
    rcases List.mem_append.mp hc with hc | hc
    · obtain ⟨piece, hmem, hc⟩ := List.mem_flatMap.mp hc
      obtain ⟨l, hl, hpiece⟩ := List.mem_filterMap.mp hmem
      rcases List.mem_append.mp hc with hc | hc
      · exact h l (List.mem_append_left _ hl) piece hpiece c hc
      · rwa [List.mem_singleton.mp hc]
    · obtain ⟨piece, hmem, hc⟩ := List.mem_flatMap.mp hc
      obtain ⟨l, hl, hpiece⟩ := List.mem_filterMap.mp hmem
      rcases List.mem_append.mp hc with hc | hc
      · rwa [List.mem_singleton.mp hc]
      · exact h l (List.mem_append_right _ hl) piece hpiece c hc

theorem mem_markLines {bom : Bool} {ls : List Line} {x : Bool × Line} (h : x ∈ markLines bom ls) :
    ∃ pre post, ls = pre ++ x.2 :: post ∧ (bom = true → pre = [] → x.1 = true) := by
  cases ls with
  | nil => cases h
  | cons l ls =>
      rcases List.mem_cons.mp h with rfl | h
      · exact ⟨[], ls, rfl, fun hbom _ => hbom⟩
      · obtain ⟨l', hl', rfl⟩ := List.mem_map.mp h
        obtain ⟨pre, post, rfl⟩ := List.append_of_mem hl'
        exact ⟨l :: pre, post, rfl, fun _ hpre => absurd hpre (List.cons_ne_nil l pre)⟩

theorem markLines_split {bom : Bool} {pre : List Line} (post : List Line) (l : Line)
    (hbom : bom = true → pre ≠ []) : ∃ pre' post', markLines bom (pre ++ l :: post) =
      pre' ++ (false, l) :: post' ∧ ∀ x ∈ pre' ++ post', x.2 ∈ pre ++ post := by
  cases pre with
  | nil =>
      have hfalse : bom = false := Bool.eq_false_iff.mpr fun h => hbom h rfl
      subst hfalse
      refine ⟨[], post.map (fun l => (false, l)), rfl, fun x hx => ?_⟩
      obtain ⟨l', hl', rfl⟩ := List.mem_map.mp hx
      exact hl'
  | cons first pre =>
      refine ⟨(bom, first) :: pre.map (fun l => (false, l)), post.map (fun l => (false, l)), ?_,
        fun x hx => ?_⟩
      · simp [markLines]
      · rw [List.cons_append, List.mem_cons, ← List.map_append] at hx
        rcases hx with rfl | hx
        · exact List.mem_cons_self
        · obtain ⟨l', hl', rfl⟩ := List.mem_map.mp hx
          exact List.mem_cons_of_mem _ hl'

end Document

/-! ### What a reader takes of an event -/

/-- What a reader takes of data lines are parts of their values, divided from the rest by gaps.
Alone it takes the value of every fine line that has a space and no byte order mark, and of no
other. -/
structure Takes (r : Py.LineReader) (take : Text → List Text) (fine : Text → Prop) : Prop where
  part : ∀ bom (l : Line) w, l.Valid → l.piece? = some w → ∀ p ∈ take (behindMark bom l.text),
    ∃ a b, w = a ++ p ++ b ∧ Apart r a b ∧ ((∀ c ∈ a ++ b, isJsonSpace c = true) →
      bom = false ∧ l = .field "data".toList true w ∧ fine w)
  line : ∀ w, fine w → ¬ Blank r w → ∃ a p b, w = a ++ p ++ b ∧ Blank r (a ++ b) ∧
    take (Line.field "data".toList true w).text = [p]

section Takes

variable {V : Type} {r : Py.LineReader} {parse : Text → Option V} {take : Text → List Text}
  {fine : Text → Prop} {e : Event} {d : Text}

theorem Event.valid_marked (e : Event) : ∀ x ∈ e.marked, x.2.Valid := by
  intro x hx
  obtain ⟨pre, post, hlines, -⟩ := mem_markLines hx
  have hmem : x.2 ∈ e.lines.map Prod.fst := hlines ▸ List.mem_append_right _ List.mem_cons_self
  obtain ⟨l, hl, heq⟩ := List.mem_map.mp hmem
  exact heq ▸ e.valid l hl

theorem onOneLine_of_mem (htakes : Takes r take fine) (hd : e.data? = some d)
    (hdoc : IsDocument r parse d) (hquiet : e.Quiet parse take) {v : V} (hv : parse d = some v)
    (hread : v ∈ consume parse (e.taken take)) : ∃ w, e.OnOneLine r w ∧ fine w := by
  obtain ⟨p, hp, hparse⟩ := exists_of_mem_consume hread
  obtain ⟨x, hx, hp⟩ := List.mem_flatMap.mp hp
  cases hpiece : x.2.piece? with
  | none =>
      have hsilent := (hquiet x hx hpiece p hp).2
      rw [hparse] at hsilent
      cases hsilent
  | some w =>
      obtain ⟨a, b, hw, hapart, hfine⟩ := htakes.part x.1 x.2 w (e.valid_marked x hx) hpiece p hp
      obtain ⟨pre, post, hlines, hbom⟩ := mem_markLines hx
      have hsplit := data_split hlines hpiece
      set before := (pre.filterMap Line.piece?).flatMap (· ++ ['\n'])
      set after := (post.filterMap Line.piece?).flatMap (['\n'] ++ ·)
      -- around the payload there is only white space
      have hwhole : d = (before ++ a) ++ p ++ (b ++ after) := by
        rw [Option.some.inj (hd.symm.trans hsplit), hw]
        simp only [List.append_assoc]
      have hspace := (hdoc.whole _ _ _ hwhole ((apart_lines _ _).trans hapart)).mp
        (hparse.trans hv.symm)
      have hown : ∀ c ∈ a ++ b, isJsonSpace c = true := by
        intro c hc
        refine hspace c ?_
        simp only [List.mem_append] at hc ⊢
        tauto
      obtain ⟨hmark, hline, hw'⟩ := hfine hown
      refine ⟨w, ⟨pre, post, hline ▸ hlines, fun h hpre => ?_, blank_lines.mp fun c hc => ?_⟩, hw'⟩
      · rw [hbom h hpre] at hmark
        cases hmark
      · refine gap_of_isJsonSpace (hspace c ?_)
        simp only [List.mem_append] at hc ⊢
        tauto

theorem silent_of_blank (hreader : JsonReader r parse) (hbracket : gap r '[' = false) {q : Text}
    (hq : Blank r q) : Silent parse q := by
  refine ⟨fun hdone => ?_, hreader.blank q hq⟩
  have hopen := hq '[' (by rw [hdone]; decide)
  rw [hbracket] at hopen
  cases hopen

theorem IsDocument.parse_part (hdoc : IsDocument r parse d) {a p b : Text} (hd : d = a ++ p ++ b)
    (hblank : Blank r (a ++ b)) : parse p = parse d :=
  (hdoc.whole _ _ _ hd (apart_of_blank hblank)).mpr (hdoc.ends _ _ _ hd hblank)

/-- What is taken of a line without a value of its own, or with a blank one, is passed over. -/
theorem silent_of_marked (htakes : Takes r take fine) (hreader : JsonReader r parse)
    (hbracket : gap r '[' = false) (hquiet : e.Quiet parse take) {x : Bool × Line}
    (hx : x ∈ e.marked) (hblank : ∀ piece ∈ x.2.piece?, Blank r piece) :
    ∀ q ∈ take (behindMark x.1 x.2.text), Silent parse q := by
  intro q hq
  cases hpiece : x.2.piece? with
  | none => exact hquiet x hx hpiece q hq
  | some u =>
      obtain ⟨a, b, hu, -⟩ := htakes.part x.1 x.2 u (e.valid_marked x hx) hpiece q hq
      have hall := hblank u hpiece
      rw [hu, blank_append, blank_append] at hall
      exact silent_of_blank hreader hbracket hall.1.2

/-- A document that is on one line is read. -/
theorem readsOne_of_onOneLine (htakes : Takes r take fine) (hreader : JsonReader r parse)
    (hbracket : gap r '[' = false) (hd : e.data? = some d) (hdoc : IsDocument r parse d)
    (hquiet : e.Quiet parse take) {v : V} (hv : parse d = some v) {w : Text}
    (hline : e.OnOneLine r w) (hfine : fine w) : ReadsOne parse (e.taken take) v := by
  obtain ⟨pre, post, hlines, hbom, hblank⟩ := hline
  have hsplit := data_split (w := w) hlines rfl
  obtain ⟨hbefore, hafter⟩ := blank_append.mp (blank_lines.mpr hblank)
  set before := (pre.filterMap Line.piece?).flatMap (· ++ ['\n'])
  set after := (post.filterMap Line.piece?).flatMap (['\n'] ++ ·)
  have hwhole : d = before ++ w ++ after := Option.some.inj (hd.symm.trans hsplit)
  have hnot : ¬ Blank r w := by
    intro hw
    have hall : Blank r d := by
      rw [hwhole, blank_append, blank_append]
      exact ⟨⟨hbefore, hw⟩, hafter⟩
    rw [hreader.blank d hall] at hv
    cases hv
  obtain ⟨a, p, b, hw, hends, htake⟩ := htakes.line w hfine hnot
  have hparse : parse p = some v := by
    have hparts : d = (before ++ a) ++ p ++ (b ++ after) := by
      rw [hwhole, hw]
      simp only [List.append_assoc]
    obtain ⟨ha, hb⟩ := blank_append.mp hends
    have haround : Blank r ((before ++ a) ++ (b ++ after)) :=
      blank_append.mpr ⟨blank_append.mpr ⟨hbefore, ha⟩, blank_append.mpr ⟨hb, hafter⟩⟩
    rw [hdoc.parse_part hparts haround, hv]
  obtain ⟨pre', post', hmarked, hothers⟩ := markLines_split post
    (.field "data".toList true w) hbom
  rw [← hlines] at hmarked
  -- what is taken of the other lines is passed over
  have hsilent : ∀ ls : List (Bool × Line), (∀ x ∈ ls, x ∈ pre' ++ post') →
      ∀ q ∈ ls.flatMap (fun l => take (behindMark l.1 l.2.text)), Silent parse q := by
    intro ls hls q hq
    obtain ⟨x, hx, hq⟩ := List.mem_flatMap.mp hq
    have hmem : x ∈ e.marked := by
      rw [Event.marked, hmarked]
      rcases List.mem_append.mp (hls x hx) with h | h
      · exact List.mem_append_left _ h
      · exact List.mem_append_right _ (List.mem_cons_of_mem _ h)
    exact silent_of_marked htakes hreader hbracket hquiet hmem
      (hblank x.2 (hothers x (hls x hx))) q hq
  have htaken : e.taken take = pre'.flatMap (fun l => take (behindMark l.1 l.2.text)) ++
      ([p] ++ post'.flatMap (fun l => take (behindMark l.1 l.2.text))) := by
    rw [Event.taken, Event.marked, hmarked, List.flatMap_append, List.flatMap_cons, ← htake]
    rfl
  rw [htaken]
  have hdone : p ≠ doneText := by
    rintro rfl
    rw [hreader.done] at hparse
    cases hparse
  exact readsOne_among (hsilent pre' fun x hx => List.mem_append_left _ hx)
    (hsilent post' fun x hx => List.mem_append_right _ hx) hdone hparse

theorem consume_last (htakes : Takes r take fine) (hclean : ∀ c ∈ doneText, gap r c = false)
    (hd : e.data? = some doneText) (hquiet : e.Quiet parse take) :
    consume parse (e.taken take) = [] := by
  refine List.filterMap_eq_nil_iff.mpr fun p hp => ?_
  have hne : p ≠ doneText := by simpa using List.mem_takeWhile_imp hp
  obtain ⟨x, hx, hmem⟩ := List.mem_flatMap.mp (List.takeWhile_subset _ hp)
  cases hpiece : x.2.piece? with
  | none => exact (hquiet x hx hpiece p hmem).2
  | some w =>
      obtain ⟨a, b, rfl, hapart, -⟩ :=
        htakes.part x.1 x.2 w (e.valid_marked x hx) hpiece p hmem
      obtain ⟨pre, post, hlines, -⟩ := mem_markLines hx
      have hsplit := Option.some.inj (hd.symm.trans (data_split hlines hpiece))
      set before := (pre.filterMap Line.piece?).flatMap (· ++ ['\n'])
      set after := (post.filterMap Line.piece?).flatMap (['\n'] ++ ·)
      have hwhole : doneText = (before ++ a) ++ p ++ (b ++ after) := by
        rw [hsplit]
        simp only [List.append_assoc]
      exact absurd (((apart_lines _ _).trans hapart).eq hwhole hclean).2.2 hne

theorem consume_events_iff (htakes : Takes r take fine) (hreader : JsonReader r parse)
    (hclean : ∀ c ∈ doneText, gap r c = false) {s : Stream}
    (hdocs : ∀ e ∈ s.events, ∃ d, e.data? = some d ∧ IsDocument r parse d)
    (hquiet : s.Quiet parse take) :
    consume parse (s.events.flatMap (Event.taken take) ++ s.last.taken take) =
        s.events.flatMap (Event.docs parse) ↔
      ∀ e ∈ s.events, ∃ w, e.OnOneLine r w ∧ fine w := by
  obtain ⟨hevents, hend⟩ := List.forall_mem_append.mp hquiet
  have hlast := consume_last htakes hclean s.last_data (hend s.last (List.mem_singleton_self _))
  have hone : ∀ e ∈ s.events, ∃ v, Event.docs parse e = [v] ∧
      (v ∈ consume parse (e.taken take) → ∃ w, e.OnOneLine r w ∧ fine w) ∧
      ((∃ w, e.OnOneLine r w ∧ fine w) → ReadsOne parse (e.taken take) v) := by
    intro e he
    obtain ⟨d, hd, hdoc⟩ := hdocs e he
    obtain ⟨v, hv⟩ := Option.isSome_iff_exists.mp hdoc.accepted
    refine ⟨v, by rw [Event.docs, hd, Option.bind_some, hv]; rfl, ?_, ?_⟩
    · exact onOneLine_of_mem htakes hd hdoc (hevents e he) hv
    · rintro ⟨w, hline, hfine⟩
      exact readsOne_of_onOneLine htakes hreader (hclean '[' (by decide)) hd hdoc (hevents e he) hv
        hline hfine
  rw [consume_flatMap_iff hlast fun e he => ?_]
  · refine forall₂_congr fun e he => ?_
    obtain ⟨v, hv, hmem, hreads⟩ := hone e he
    rw [hv, List.forall_mem_singleton]
    exact ⟨fun h => hmem (by rw [h.1]; exact List.mem_singleton_self v), hreads⟩
  · obtain ⟨v, hv, hmem, hreads⟩ := hone e he
    exact ⟨v, hv, fun h => hreads (hmem h)⟩

end Takes

/-! ### The two readers -/

section Lines

variable {r : Py.LineReader} {w : Text}

theorem piece_cases {l : Line} (h : l.piece? = some w) :
    (∃ space, l = .field "data".toList space w) ∨ l = .bare "data".toList ∧ w = [] := by
  cases l with
  | comment text => cases h
  | field name space value =>
      rw [Line.piece?, Option.ite_none_right_eq_some, Option.some.injEq] at h
      obtain ⟨rfl, rfl⟩ := h
      exact .inl ⟨space, rfl⟩
  | bare name =>
      rw [Line.piece?, Option.ite_none_right_eq_some, Option.some.injEq] at h
      obtain ⟨rfl, rfl⟩ := h
      exact .inr ⟨rfl, rfl⟩

theorem head?_rdropWhile (h : w.head? ≠ some ' ') :
    (w.rdropWhile isWhitespace).head? ≠ some ' ' := by
  obtain ⟨u, hu⟩ := List.rdropWhile_prefix isWhitespace (l := w)
  cases hdrop : w.rdropWhile isWhitespace with
  | nil => exact fun hnone => by cases hnone
  | cons c cs =>
      rw [← hu, hdrop] at h
      exact h

/-- Without the space the line is passed over. -/
theorem rustData_no_space (h : w.head? ≠ some ' ') :
    rustData (Line.field "data".toList false w).text = [] := by
  have hline : (Line.field "data".toList false w).text = "data:".toList ++ w := rfl
  rw [hline, rustData, trim_data, dropPrefix_data (head?_rdropWhile h)]
  rfl

/-- With the space the value is taken, without the white space at its end. -/
theorem rustData_space (h : ∃ c ∈ w, isWhitespace c = false) :
    rustData (Line.field "data".toList true w).text = [w.rdropWhile isWhitespace] := by
  obtain ⟨c, hc, hvisible⟩ := h
  obtain ⟨u, v, rfl⟩ := List.append_of_mem hc
  have hline : (Line.field "data".toList true (u ++ c :: v)).text =
      "data:".toList ++ (' ' :: u ++ c :: v) := rfl
  rw [hline, rustData, trim_data, rdropWhile_append hvisible, rdropWhile_append hvisible]
  have hdata : "data:".toList ++ (' ' :: u ++ c :: v.rdropWhile isWhitespace) =
      dataPrefix ++ (u ++ c :: v.rdropWhile isWhitespace) := rfl
  rw [hdata, dropPrefix_append]
  rfl

theorem rustData_blank (h : ∀ c ∈ w, isWhitespace c = true) :
    rustData (Line.field "data".toList true w).text = [] := by
  have hline : (Line.field "data".toList true w).text = "data:".toList ++ ' ' :: w := rfl
  have hall : ∀ c ∈ ' ' :: w, isWhitespace c = true := List.forall_mem_cons.mpr ⟨by decide, h⟩
  rw [hline, rustData, trim_data, List.rdropWhile_eq_nil_iff.mpr hall]
  rfl

theorem rustData_mark (text : Text) : rustData (Char.ofNat 0xFEFF :: text) = [] := by
  rw [rustData, trim, stripWith_cons (by decide)]
  rfl

theorem takes_rust : Takes r rustData (fun _ => True) where
  part := by
    intro bom l w hvalid hpiece p hp
    cases bom with
    | true =>
        have hnone : rustData (behindMark true l.text) = [] := rustData_mark l.text
        rw [hnone] at hp
        cases hp
    | false =>
        rcases piece_cases hpiece with ⟨space, rfl⟩ | ⟨rfl, -⟩
        · cases space with
          | false =>
              have hnone := rustData_no_space (hvalid.2.2.2.2 rfl)
              rw [behindMark, if_neg Bool.false_ne_true, hnone] at hp
              cases hp
          | true =>
              rw [behindMark, if_neg Bool.false_ne_true] at hp
              by_cases hblank : ∀ c ∈ w, isWhitespace c = true
              · rw [rustData_blank hblank] at hp
                cases hp
              · simp only [not_forall, Bool.not_eq_true] at hblank
                obtain ⟨c, hc, hvisible⟩ := hblank
                rw [rustData_space ⟨c, hc, hvisible⟩, List.mem_singleton] at hp
                subst hp
                refine ⟨[], w.rtakeWhile isWhitespace, ?_, apart_of_blank fun c hc => ?_,
                  fun _ => ⟨rfl, rfl, trivial⟩⟩
                · exact (List.rdropWhile_append_rtakeWhile ..).symm
                · rw [gap, List.mem_rtakeWhile_imp hc, Bool.true_or, Bool.true_or]
        · cases hp
  line := by
    intro w _ hnot
    have hvisible : ∃ c ∈ w, isWhitespace c = false := by
      by_contra hnone
      refine hnot fun c hc => ?_
      have hwhite : isWhitespace c = true := by
        by_contra h
        exact hnone ⟨c, hc, by simpa using h⟩
      rw [gap, hwhite, Bool.true_or, Bool.true_or]
    refine ⟨[], w.rdropWhile isWhitespace, w.rtakeWhile isWhitespace, ?_, fun c hc => ?_,
      rustData_space hvisible⟩
    · exact (List.rdropWhile_append_rtakeWhile ..).symm
    · rw [gap, List.mem_rtakeWhile_imp hc, Bool.true_or, Bool.true_or]

/-- The pieces of a text are parts of it without separators, between separators. -/
theorem mem_piecesFrom {gathered text x : Text} (hgathered : ∀ c ∈ gathered, isBreak c = false)
    (h : x ∈ piecesFrom gathered text) : (∀ c ∈ x, isBreak c = false) ∧
      ∃ a b, gathered ++ text = a ++ x ++ b ∧ (∀ c ∈ a.getLast?, isBreak c = true) ∧
        ∀ c ∈ b.head?, isBreak c = true := by
  induction text generalizing gathered with
  | nil =>
      obtain rfl := List.mem_singleton.mp h
      exact ⟨hgathered, [], [], by simp, by simp, by simp⟩
  | cons c cs ih =>
      rw [piecesFrom] at h
      split_ifs at h with hbreak
      · rcases List.mem_cons.mp h with rfl | h
        · exact ⟨hgathered, [], c :: cs, rfl, by simp, by simpa using hbreak⟩
        · obtain ⟨hx, a, b, heq, ha, hb⟩ := ih (fun c hc => absurd hc List.not_mem_nil) h
          refine ⟨hx, gathered ++ c :: a, b, ?_, fun c' hc' => ?_, hb⟩
          · rw [List.nil_append] at heq
            simp [heq]
          · rw [List.getLast?_append, List.getLast?_cons] at hc'
            cases hlast : a.getLast? with
            | none => simp_all
            | some last => simp_all
      · have hmore : ∀ c' ∈ gathered ++ [c], isBreak c' = false :=
          List.forall_mem_append.mpr ⟨hgathered, by simpa using hbreak⟩
        obtain ⟨hx, a, b, heq, ha, hb⟩ := ih hmore h
        exact ⟨hx, a, b, by simpa using heq, ha, hb⟩

theorem piecesFrom_of_all (h : ∀ c ∈ w, isBreak c = false) (gathered : Text) :
    piecesFrom gathered w = [gathered ++ w] := by
  induction w generalizing gathered with
  | nil => rw [piecesFrom, List.append_nil]
  | cons c cs ih =>
      obtain ⟨hc, hcs⟩ := List.forall_mem_cons.mp h
      have hnot : ¬ isBreak c = true := by simp [hc]
      rw [piecesFrom, if_neg hnot, ih hcs, List.append_assoc]
      rfl

/-- What `strip` leaves is a part of the text between white space. -/
theorem strip_split (r : Py.LineReader) (s : Text) : ∃ a b,
    s = a ++ Py.strip r.unicode s ++ b ∧ Blank r (a ++ b) := by
  refine ⟨s.takeWhile r.unicode.space, (s.dropWhile r.unicode.space).rtakeWhile r.unicode.space,
    ?_, fun c hc => ?_⟩
  · have hstrip : Py.strip r.unicode s =
        (s.dropWhile r.unicode.space).rdropWhile r.unicode.space := rfl
    rw [hstrip, List.append_assoc, List.rdropWhile_append_rtakeWhile,
      List.takeWhile_append_dropWhile]
  · have hspace : r.unicode.space c = true := by
      rcases List.mem_append.mp hc with hc | hc
      · exact List.mem_takeWhile_imp hc
      · exact List.mem_rtakeWhile_imp hc
    rw [gap, hspace, Bool.or_true, Bool.true_or]

theorem data?_eq_some {x p : Text} (h : r.data? x = some p) :
    ∃ y, x = dataPrefix ++ y ∧ p = Py.strip r.unicode y := by
  rw [Py.LineReader.data?, Option.ite_none_right_eq_some, Option.some.injEq] at h
  obtain ⟨hstarts, rfl⟩ := h
  obtain ⟨y, rfl⟩ := List.isPrefixOf_iff_prefix.mp hstarts
  exact ⟨y, rfl, rfl⟩

/-- The text in front of the value of a data line. -/
def beforeValue (bom space : Bool) : Text :=
  behindMark bom ("data:".toList ++ if space then [' '] else [])

theorem beforeValue_append (bom space : Bool) (w : Text) :
    behindMark bom (Line.field "data".toList space w).text = beforeValue bom space ++ w := by
  cases bom <;> cases space <;> rfl

theorem clean_beforeValue (bom space : Bool) : ∀ c ∈ beforeValue bom space, isBreak c = false := by
  have hall : ((beforeValue bom space).all fun c => !isBreak c) = true := by
    cases bom <;> cases space <;> decide
  exact fun c hc => by simpa using List.all_eq_true.mp hall c hc

theorem pyData_space (hbreak : ∀ c ∈ w, isBreak c = false) :
    pyData r (Line.field "data".toList true w).text = [Py.strip r.unicode w] := by
  have hline : (Line.field "data".toList true w).text = beforeValue false true ++ w := rfl
  have hclean := List.forall_mem_append.mpr ⟨clean_beforeValue false true, hbreak⟩
  rw [pyData, hline, piecesFrom_of_all hclean]
  rfl

/-- A piece with data is the first one, or lies behind a separator in the value. -/
theorem piece_split {bom space : Bool} {a y b : Text} (hspace : space = false → w.head? ≠ some ' ')
    (heq : beforeValue bom space ++ w = a ++ (dataPrefix ++ y) ++ b)
    (ha : ∀ c ∈ a.getLast?, isBreak c = true) :
    (bom = false ∧ space = true ∧ w = y ++ b) ∨
      ∃ a', w = (a' ++ dataPrefix) ++ y ++ b := by
  rcases List.eq_nil_or_concat a with rfl | ⟨a', c, rfl⟩
  · left
    cases bom with
    | true => cases space <;> cases heq
    | false =>
        cases space with
        | true =>
            rw [List.nil_append, List.append_assoc] at heq
            exact ⟨rfl, rfl, List.append_cancel_left heq⟩
        | false =>
            have hdata : ([] : Text) ++ (dataPrefix ++ y) ++ b =
                beforeValue false false ++ ' ' :: (y ++ b) := rfl
            rw [hdata] at heq
            exact absurd (by rw [List.append_cancel_left heq]; rfl) (hspace rfl)
  · right
    have hc : isBreak c = true := ha c (by simp)
    rw [List.append_assoc, List.concat_eq_append, List.append_assoc] at heq
    rcases List.append_eq_append_iff.mp heq with ⟨a₀, rfl, hw⟩ | ⟨c', hbefore, hw⟩
    · exact ⟨a₀ ++ [c], by simp [hw]⟩
    · cases c' with
      | nil => exact ⟨[c], by simpa using hw.symm⟩
      | cons c₀ c' =>
          obtain rfl := (List.cons_eq_cons.mp hw).1
          have hnot := clean_beforeValue bom space c (by rw [hbefore]; simp)
          rw [hc] at hnot
          cases hnot

theorem takes_py : Takes r (pyData r) (fun w => ∀ c ∈ w, isBreak c = false) where
  part := by
    intro bom l w hvalid hpiece p hp
    rcases piece_cases hpiece with ⟨space, rfl⟩ | ⟨rfl, -⟩
    · obtain ⟨x, hx, hdata⟩ := List.mem_filterMap.mp hp
      obtain ⟨y, rfl, rfl⟩ := data?_eq_some hdata
      rw [beforeValue_append] at hx
      obtain ⟨hclean, a, b, heq, ha, hb⟩ := mem_piecesFrom (List.forall_mem_nil _) hx
      obtain ⟨s, t, hy, hst⟩ := strip_split r y
      have hgaps : ∀ c, isBreak c = true → gap r c = true := fun c hc => by
        rw [gap, hc, Bool.or_true]
      have hafter : ∀ c ∈ b.head?, gap r c = true := fun c hc => hgaps c (hb c hc)
      rcases piece_split hvalid.2.2.2.2 heq ha with ⟨rfl, rfl, hw⟩ | ⟨a', hw⟩
      · refine ⟨s, t ++ b, ?_, ?_, fun hspace => ⟨rfl, rfl, fun c hc => ?_⟩⟩
        · rw [hw]
          nth_rewrite 1 [hy]
          simp only [List.append_assoc]
        · exact Apart.trans (a := []) (b := b) ⟨by simp, hafter⟩ (apart_of_blank hst)
        · rw [hw] at hc
          rcases List.mem_append.mp hc with hc | hc
          · exact hclean c (List.mem_append_right _ hc)
          · -- behind the piece there is white space of JSON, and no end of a line
            have hjson := hspace c (by simp [hc])
            have hends : c ≠ '\n' ∧ c ≠ '\r' := by
              have hmem : c ∈ (Line.field "data".toList true w).text := by
                rw [hw]
                exact List.mem_append_right dataPrefix (List.mem_append_right _ hc)
              exact ⟨fun h => hvalid.1 (h ▸ hmem), fun h => hvalid.2.1 (h ▸ hmem)⟩
            simp only [isJsonSpace, Bool.or_eq_true, decide_eq_true_eq] at hjson
            rcases hjson with ((rfl | rfl) | rfl) | rfl
            · decide
            · decide
            · exact absurd rfl hends.1
            · exact absurd rfl hends.2
      · refine ⟨a' ++ dataPrefix ++ s, t ++ b, ?_, ?_, fun hspace => ?_⟩
        · rw [hw]
          nth_rewrite 1 [hy]
          simp only [List.append_assoc]
        · refine Apart.trans ⟨fun c hc => ?_, hafter⟩ (apart_of_blank hst)
          have hlast : a' ++ dataPrefix = (a' ++ "data:".toList) ++ [' '] := by
            rw [List.append_assoc]
            rfl
          rw [hlast, List.getLast?_concat] at hc
          obtain rfl := Option.some.inj hc
          exact gap_of_isJsonSpace (by decide)
        · exact absurd (hspace 'd' (by simp [dataPrefix])) (by decide)
    · cases bom <;> cases hp
  line := by
    intro w hfine _
    obtain ⟨a, b, hw, hblank⟩ := strip_split r w
    exact ⟨a, _, b, hw, hblank, pyData_space hfine⟩

end Lines

/-- **Of a stream whose events carry a document each, the Rust gateway reads exactly the documents
if and only if the data of every event are on one line, behind a space; the Python gateway if and
only if, besides, there is no separator of lines in them.** -/
theorem grammar_iff {parse : Text → Option Json} {r : Py.LineReader} (h : Readers parse r)
    {s : Stream} (hdocs : ∀ e ∈ s.events, e.Carries parse r) (hrust : s.Quiet parse rustData)
    (hpython : s.Quiet r.loads (pyData r)) :
    (RustReads parse s ↔ ∀ e ∈ s.events, ∃ value, e.OnOneLine r value) ∧
      (PyReads r s ↔ ∀ e ∈ s.events, ∃ value, e.OnOneLine r value ∧
        ∀ c ∈ value, isBreak c = false) := by
  have hclean : ∀ c ∈ doneText, gap r c = false := by
    have hvisible : (doneText.all fun c => 0x20 < c.toNat && c.toNat < 0x7F) = true := by decide
    intro c hc
    obtain ⟨hlow, hhigh⟩ := Bool.and_eq_true_iff.mp (List.all_eq_true.mp hvisible c hc)
    exact h.not_gap (of_decide_eq_true hlow) (of_decide_eq_true hhigh)
  constructor
  · rw [rustReads_iff, consume_events_iff takes_rust h.rust hclean (fun e he => ?_) hrust]
    · simp only [and_true]
    · obtain ⟨d, hd, hdoc, -⟩ := hdocs e he
      exact ⟨d, hd, hdoc⟩
  · rw [pyReads_iff, consume_events_iff takes_py h.python hclean (fun e he => ?_) hpython]
    obtain ⟨d, hd, -, hdoc⟩ := hdocs e he
    exact ⟨d, hd, hdoc⟩

/-! ### An event with comments, and a line without the space -/

/-- An empty object, by both readers. -/
def parseEmpty (s : Text) : Option Json := if s = "{}".toList then some (.obj []) else none

def loadsEmpty : Py.LineReader :=
  ⟨⟨fun _ => none, isWhitespace⟩, fun s => if s = "{}".toList then some (.dict []) else none⟩

/-- The line `data: [DONE]`. -/
def doneEvent : Event :=
  ⟨false, [(.field "data".toList true "[DONE]".toList, false)], false, by decide +kernel⟩

/-- One event, behind a byte order mark and a comment. -/
def commented : Stream where
  events := [⟨true, [(.comment " ping".toList, true),
    (.field "data".toList true "{}".toList, true), (.field "id".toList false "1".toList, false)],
    true, by decide +kernel⟩]
  last := doneEvent
  last_data := rfl
  bom_first := by decide

theorem readers_empty : Readers parseEmpty loadsEmpty := by
  have hgap : gap loadsEmpty '\x7b' = false := by decide
  have hnot : ∀ p, Blank loadsEmpty p → p ≠ "{}".toList := by
    rintro p hblank rfl
    have hopen := hblank '\x7b' (by decide)
    rw [hgap] at hopen
    cases hopen
  refine ⟨⟨by decide +kernel, fun p hp => if_neg (hnot p hp)⟩,
    ⟨by decide +kernel, fun p hp => if_neg (hnot p hp)⟩, fun c hlow hhigh => ?_⟩
  simp only [loadsEmpty, isWhitespace, Bool.or_eq_false_iff, Bool.and_eq_false_iff,
    decide_eq_false_iff_not]
  omega

theorem empty_clean : ∀ c ∈ "{}".toList, gap loadsEmpty c = false := by
  have hall : ("{}".toList.all fun c => !gap loadsEmpty c) = true := by decide
  exact fun c hc => by simpa using List.all_eq_true.mp hall c hc

theorem quiet_of_nil {V : Type} {parse : Text → Option V} {take : Text → List Text} {s : Stream}
    (h : ∀ e ∈ s.events ++ [s.last], ∀ l ∈ e.marked, l.2.piece? = none →
      take (behindMark l.1 l.2.text) = []) : s.Quiet parse take := by
  intro e he l hl hpiece p hp
  rw [h e he l hl hpiece] at hp
  cases hp

theorem commented_read : RustReads parseEmpty commented ∧ PyReads loadsEmpty commented := by
  have hdocs : ∀ e ∈ commented.events, e.Carries parseEmpty loadsEmpty := by
    exact List.forall_mem_singleton.mpr ⟨"{}".toList, rfl, isDocument_of_clean rfl empty_clean,
      isDocument_of_clean rfl empty_clean⟩
  have hrust : commented.Quiet parseEmpty rustData := quiet_of_nil (by decide +kernel)
  have hpython : commented.Quiet loadsEmpty.loads (pyData loadsEmpty) :=
    quiet_of_nil (by decide +kernel)
  have hline : ∀ e ∈ commented.events, e.OnOneLine loadsEmpty "{}".toList := by
    refine List.forall_mem_singleton.mpr ⟨[.comment " ping".toList],
      [.field "id".toList false "1".toList], rfl, fun _ => List.cons_ne_nil _ _, ?_⟩
    have hnone : ∀ l ∈ [Line.comment " ping".toList, .field "id".toList false "1".toList],
        l.piece? = none := by decide
    intro l hl piece hpiece
    rw [hnone l hl] at hpiece
    cases hpiece
  obtain ⟨hreads, hreadsPy⟩ := grammar_iff readers_empty hdocs hrust hpython
  exact ⟨hreads.mpr fun e he => ⟨_, hline e he⟩,
    hreadsPy.mpr fun e he => ⟨_, hline e he, fun c hc =>
      (Bool.or_eq_false_iff.mp (empty_clean c hc)).2⟩⟩

/-- One event, and the end. -/
def noSpace : Stream where
  events := [⟨false, [(.field "data".toList false "{}".toList, false)], false, by
    decide +kernel⟩]
  last := doneEvent
  last_data := rfl
  bom_first := by decide

/-- The event is dropped. -/
theorem no_space_dropped : ¬ ∀ (parse : Text → Option Json) (r : Py.LineReader) (s : Stream),
    Readers parse r → (∀ e ∈ s.events, e.Carries parse r) → ReadsDocuments parse r s := by
  intro h
  have hdocs : ∀ e ∈ noSpace.events, e.Carries parseEmpty loadsEmpty := by
    exact List.forall_mem_singleton.mpr ⟨"{}".toList, rfl, isDocument_of_clean rfl empty_clean,
      isDocument_of_clean rfl empty_clean⟩
  obtain ⟨hrust, hpy⟩ := h parseEmpty loadsEmpty noSpace readers_empty hdocs
  have hnone : ([] : List Py.Value) = [.dict []] := hpy
  cases hnone

end FirewallLLM.Sse
