import FirewallLLM.Config
import FirewallLLM.LineStream
import FirewallLLM.StreamResponse
import FirewallLLM.ToolCallScan
import FirewallLLM.Utf8
import Mathlib.Data.List.DropRight

/-! # Event streams on the wire

What `stream_response` writes for its events, as bytes, and what `chat_stream` of
`OpenAiCompatProvider` reads from a byte stream.  The line reader cuts the stream at line feeds;
how `serde_json` reads a text and how it writes numbers are parameters.

`parses_back`: the chunks that are written are read back, wherever the network cuts the stream and
whatever lines without a chunk stand in between. -/

namespace FirewallLLM.Sse

open Dlp (Text)
open FirewallLLM.Core (isWhitespace stripWith trim)
open JsonText (Doc)

/-! ### What is written -/

section Write

variable (number : Number → Text)

/-- `to_string` of a chunk. -/
def compact (v : Json) : Text := (ToolCalls.serde number).dump (ToolCalls.ofJson v)

/-- The field of the data. -/
def dataPrefix : Text := "data: ".toList

/-- What stands for the end. -/
def doneText : Text := "[DONE]".toList

/-- What `stream_response` writes for an event. -/
def written : Dlp.Event → Text
  | .data v => dataPrefix ++ compact number v ++ ['\n', '\n']
  | .done => dataPrefix ++ doneText ++ ['\n', '\n']

/-- The body of a response. -/
def body (events : List Dlp.Event) : List UInt8 := Utf8.encode (events.flatMap (written number))

/-- The lines of an event. -/
def lines : Dlp.Event → List Text
  | .data v => [dataPrefix ++ compact number v, []]
  | .done => [dataPrefix ++ doneText, []]

theorem written_eq (e : Dlp.Event) : written number e = (lines number e).flatMap (· ++ ['\n']) := by
  cases e with
  | data v => simp [written, lines]
  | done => simp [written, lines]

end Write

/-! ### What is read -/

/-- What a line comes to. -/
inductive LineRead where
  | skip
  | done
  | value (v : Json)

section Read

variable (parse : Text → Option Json)

/-- The body of the loop. -/
def readLine (line : Text) : LineRead :=
  match (trim line).dropPrefix? dataPrefix with
  | some data =>
      if data = doneText then .done
      else match parse data with
        | some v => .value v
        | none => .skip
  | none => .skip

/-- The chunks of the lines, of which some may be no text. -/
def readLines : List (Option Text) → List (Except String Json)
  | [] => []
  | none :: ls => .error "stream did not contain valid UTF-8" :: readLines ls
  | some line :: ls =>
      match readLine parse line with
      | .skip => readLines ls
      | .done => []
      | .value v => .ok v :: readLines ls

/-- The line without its carriage return. -/
def chomp (line : Text) : Text := if line.getLast? = some '\r' then line.dropLast else line

/-- `chat_stream`, of a response that comes in these reads. -/
def chatStream (reads : List (List UInt8)) : List (Except String Json) :=
  readLines parse ((LineStream.readAll 10 reads).map (fun l => (Utf8.decode l).map chomp))

end Read

/-! ### Lines in between -/

/-- A line that carries no chunk: blank, a comment, another field, or data in which no value and
no end can be read, whatever white space is around. -/
inductive Noise (parse : Text → Option Json) : Text → Prop
  | blank (l : Text) (h : l.all isWhitespace = true) : Noise parse l
  | comment (l : Text) : Noise parse (':' :: l)
  | field (name : String) (h : name ∈ ["event", "id", "retry"]) (l : Text) :
      Noise parse (name.toList ++ ':' :: l)
  | malformed (l : Text) (hdone : trim l ≠ doneText)
      (h : ∀ l', trim l' = trim l → parse l' = none) : Noise parse ("data:".toList ++ l)

/-- Lines with others in between. -/
inductive Woven (noise : Text → Prop) : List Text → List Text → Prop
  | nil : Woven noise [] []
  | line (l : Text) {ls ms : List Text} (h : Woven noise ls ms) : Woven noise (l :: ls) (l :: ms)
  | noise (l : Text) (hl : noise l) (hline : '\n' ∉ l) {ls ms : List Text}
      (h : Woven noise ls ms) : Woven noise ls (l :: ms)

/-! ### White space -/

section Strip

variable {space : Char → Bool} {c : Char} {s w : Text}

theorem stripWith_eq (s : Text) : stripWith space s = (s.dropWhile space).rdropWhile space := rfl

theorem rdropWhile_append (hc : space c = false) (p s : Text) :
    (p ++ c :: s).rdropWhile space = p ++ c :: s.rdropWhile space := by
  have hnot : ¬ space c = true := by simp [hc]
  induction s using List.reverseRecOn with
  | nil => rw [List.rdropWhile_concat_neg _ _ _ hnot, List.rdropWhile_nil]
  | append_singleton s d ih =>
      have happend : p ++ c :: (s ++ [d]) = (p ++ c :: s) ++ [d] := by simp
      rw [happend, List.rdropWhile_concat, List.rdropWhile_concat]
      split_ifs
      · exact ih
      · exact happend.symm

theorem stripWith_cons (hc : space c = false) (s : Text) :
    stripWith space (c :: s) = c :: s.rdropWhile space := by
  have hnot : ¬ space c = true := by simp [hc]
  rw [stripWith_eq, List.dropWhile_cons_of_neg hnot]
  exact rdropWhile_append hc [] s

theorem stripWith_append (hw : ∀ d ∈ w, space d = true) (s : Text) :
    stripWith space (s ++ w) = stripWith space s := by
  induction w using List.reverseRecOn generalizing s with
  | nil => rw [List.append_nil]
  | append_singleton w d ih =>
      have hd : space d = true := hw d (by simp)
      have hrest : ∀ d ∈ w, space d = true := fun d hd => hw d (List.mem_append_left _ hd)
      rw [← List.append_assoc, ← ih hrest s, stripWith_eq, stripWith_eq, List.dropWhile_append]
      split_ifs with hall
      · rw [List.dropWhile_cons_of_pos hd, List.isEmpty_iff.mp hall]
        rfl
      · exact List.rdropWhile_concat_pos _ _ _ hd

theorem stripWith_rdropWhile (s : Text) :
    stripWith space (s.rdropWhile space) = stripWith space s := by
  have hw : ∀ d ∈ s.rtakeWhile space, space d = true := fun d hd =>
    List.mem_rtakeWhile_imp hd
  calc stripWith space (s.rdropWhile space)
      = stripWith space (s.rdropWhile space ++ s.rtakeWhile space) := (stripWith_append hw _).symm
    _ = stripWith space s := by rw [List.rdropWhile_append_rtakeWhile]

theorem stripWith_of_all (h : ∀ d ∈ s, space d = true) : stripWith space s = [] := by
  have hnil : stripWith space ([] ++ s) = stripWith space [] := stripWith_append h []
  exact hnil

end Strip

/-! ### The text of a value -/

/-- A character of a number. -/
def isNumberChar (c : Char) : Bool :=
  c.isDigit || c = '+' || c = '-' || c = '.' || c = 'e' || c = 'E'

theorem isWhitespace_numberChar {c : Char} (h : isNumberChar c = true) :
    isWhitespace c = false := by
  simp only [isNumberChar, Bool.or_eq_true, decide_eq_true_eq] at h
  rcases h with ((((h | rfl) | rfl) | rfl) | rfl) | rfl
  · simp only [Char.isDigit, Bool.and_eq_true, decide_eq_true_eq] at h
    obtain ⟨hlow, hhigh⟩ := h
    have hlow' : 48 ≤ c.toNat := hlow
    have hhigh' : c.toNat ≤ 57 := hhigh
    simp only [isWhitespace, Bool.or_eq_false_iff, Bool.and_eq_false_iff, decide_eq_false_iff_not]
    omega
  all_goals decide

section Style

open ToolCalls (Style Token)

variable {ν : Type} (style : Style ν)

theorem itemTokens_last (items : List (Doc ν)) :
    ∃ init, style.itemTokens items = init ++ [.plain [']']] := by
  induction items with
  | nil => exact ⟨[], rfl⟩
  | cons d items ih =>
      obtain ⟨init, heq⟩ := ih
      exact ⟨.plain style.comma :: (style.tokens d ++ init), by rw [Style.itemTokens, heq]; simp⟩

theorem fieldTokens_last (fields : List (Text × Doc ν)) :
    ∃ init, style.fieldTokens fields = init ++ [.plain ['}']] := by
  induction fields with
  | nil => exact ⟨[], rfl⟩
  | cons field fields ih =>
      obtain ⟨init, heq⟩ := ih
      obtain ⟨key, d⟩ := field
      refine ⟨.plain style.comma :: .quoted key :: .plain style.colon ::
        (style.tokens d ++ init), ?_⟩
      rw [Style.fieldTokens, heq]
      simp

theorem tokens_last (d : Doc ν) : ∃ init last, style.tokens d = init ++ [last] ∧
    ((∃ n, last = .plain (style.number n)) ∨ (∃ s, last = .quoted s) ∨
      ∃ s ∈ ["null", "true", "false", "[]", "{}", "]", "\x7d"], last = .plain s.toList) := by
  cases d with
  | null => exact ⟨[], _, rfl, .inr (.inr ⟨"null", by decide, rfl⟩)⟩
  | bool b =>
      cases b with
      | true => exact ⟨[], _, rfl, .inr (.inr ⟨"true", by decide, rfl⟩)⟩
      | false => exact ⟨[], _, rfl, .inr (.inr ⟨"false", by decide, rfl⟩)⟩
  | num n => exact ⟨[], _, rfl, .inl ⟨n, rfl⟩⟩
  | str s => exact ⟨[], _, rfl, .inr (.inl ⟨s, rfl⟩)⟩
  | arr items =>
      cases items with
      | nil => exact ⟨[], _, rfl, .inr (.inr ⟨"[]", by decide, rfl⟩)⟩
      | cons d items =>
          obtain ⟨init, heq⟩ := itemTokens_last style items
          refine ⟨.plain ['['] :: (style.tokens d ++ init), .plain [']'], ?_,
            .inr (.inr ⟨"]", by decide, rfl⟩)⟩
          rw [Style.tokens, heq]
          simp
  | obj fields =>
      cases fields with
      | nil => exact ⟨[], _, rfl, .inr (.inr ⟨"{}", by decide, rfl⟩)⟩
      | cons field fields =>
          obtain ⟨key, d⟩ := field
          obtain ⟨init, heq⟩ := fieldTokens_last style fields
          refine ⟨.plain ['{'] :: .quoted key :: .plain style.colon :: (style.tokens d ++ init),
            .plain ['}'], ?_, .inr (.inr ⟨"\x7d", by decide, rfl⟩)⟩
          rw [Style.tokens, heq]
          simp

end Style

theorem digitChar_ne_lineFeed : ∀ n < 16, '\n' ≠ n.digitChar := by decide

theorem lineFeed_not_mem_escape (c : Char) : '\n' ∉ ToolCalls.serdeEscape c := by
  unfold ToolCalls.serdeEscape
  cases hshort : JsonText.shortEscape c with
  | some letter =>
      dsimp only
      unfold JsonText.shortEscape at hshort
      split_ifs at hshort <;> cases hshort <;> decide
  | none =>
      dsimp only
      split_ifs with hlow
      · have hdigit := fun k => digitChar_ne_lineFeed (k % 16) (Nat.mod_lt _ (by decide))
        simp only [JsonText.unitEscape, JsonText.hexDigits, List.mem_cons, List.not_mem_nil,
          or_false, hdigit]
        decide
      · intro hmem
        rw [List.mem_singleton] at hmem
        subst hmem
        exact hlow (by decide)

/-! ### The text of a chunk -/

/-- How `serde_json` writes numbers: digits, signs, a point and an exponent. -/
def NumberText (number : Number → Text) : Prop :=
  ∀ n, number n ≠ [] ∧ ∀ c ∈ number n, isNumberChar c = true

section Compact

variable {number : Number → Text}

/-- A text that ends with a character other than a space. -/
def EndsTight (s : Text) : Prop := ∃ init c, s = init ++ [c] ∧ isWhitespace c = false

theorem EndsTight.append {s : Text} (h : EndsTight s) (p : Text) : EndsTight (p ++ s) := by
  obtain ⟨init, c, rfl, hc⟩ := h
  exact ⟨p ++ init, c, (List.append_assoc ..).symm, hc⟩

theorem endsTight_of_getLast {s : Text} (hne : s ≠ [])
    (h : isWhitespace (s.getLast hne) = false) : EndsTight s :=
  ⟨s.dropLast, s.getLast hne, (List.dropLast_append_getLast hne).symm, h⟩

theorem endsTight_compact (h : NumberText number) (v : Json) : EndsTight (compact number v) := by
  obtain ⟨init, last, heq, hlast⟩ :=
    tokens_last (ToolCalls.serde number) (ToolCalls.ofJson v)
  rw [compact, ToolCalls.Style.dump, heq, List.flatMap_append, List.flatMap_singleton]
  refine EndsTight.append ?_ _
  rcases hlast with ⟨n, rfl⟩ | ⟨s, rfl⟩ | ⟨s, hs, rfl⟩
  · obtain ⟨hne, hall⟩ := h n
    exact endsTight_of_getLast hne (isWhitespace_numberChar (hall _ (List.getLast_mem hne)))
  · exact ⟨'"' :: (ToolCalls.serde number).escaped s, '"', rfl, by decide⟩
  · have hliterals : ∀ s ∈ ["null", "true", "false", "[]", "{}", "]", "\x7d"],
        ∃ hne : s.toList ≠ [], isWhitespace (s.toList.getLast hne) = false := by decide +kernel
    obtain ⟨hne, htight⟩ := hliterals s hs
    exact endsTight_of_getLast hne htight

theorem lineFeed_not_mem_compact (h : NumberText number) (v : Json) :
    '\n' ∉ compact number v := by
  have hwrites : (ToolCalls.serde number).Writes (fun s => '\n' ∉ s) := by
    have hcomma : '\n' ∉ [','] := by decide
    have hcolon : '\n' ∉ [':'] := by decide
    refine ⟨fun n hmem => ?_, hcomma, hcolon, by decide +kernel⟩
    exact absurd ((h n).2 _ hmem) (by decide)
  intro hmem
  obtain ⟨tok, htok, hin⟩ := List.mem_flatMap.mp hmem
  cases tok with
  | plain s => exact hwrites.plain_tokens _ s htok hin
  | quoted s =>
      rw [ToolCalls.Style.render, List.mem_cons, List.mem_append, List.mem_singleton] at hin
      rcases hin with hin | hin | hin
      · exact absurd hin (by decide)
      · obtain ⟨c, -, hc⟩ := List.mem_flatMap.mp hin
        exact lineFeed_not_mem_escape c hc
      · exact absurd hin (by decide)

end Compact

/-! ### One line -/

section Line

variable {number : Number → Text} {parse : Text → Option Json}

theorem trim_append {s : Text} (h : EndsTight s) {c : Char} (hc : isWhitespace c = false)
    (p : Text) : trim (c :: p ++ s) = c :: p ++ s := by
  obtain ⟨init, d, rfl, hd⟩ := h
  have hnot : ¬ isWhitespace d = true := by simp [hd]
  have hrest : (c :: p ++ (init ++ [d])) = c :: (p ++ init ++ [d]) := by simp
  rw [trim, hrest, stripWith_cons hc, List.rdropWhile_concat_neg _ _ _ hnot]

theorem dropPrefix_append (p s : Text) : (p ++ s).dropPrefix? p = some s := by
  induction p with
  | nil => cases s <;> rfl
  | cons c p ih => simpa [List.dropPrefix?] using ih

theorem trim_data (l : Text) :
    trim ("data:".toList ++ l) = "data:".toList ++ l.rdropWhile isWhitespace := by
  have hcons : trim ("data:".toList ++ l) =
      'd' :: ("ata".toList ++ ':' :: l).rdropWhile isWhitespace := stripWith_cons (by decide) _
  rw [hcons, rdropWhile_append (by decide)]
  rfl

/-- Without a space there is no data. -/
theorem dropPrefix_data {s : Text} (h : s.head? ≠ some ' ') :
    ("data:".toList ++ s).dropPrefix? dataPrefix = none := by
  cases s with
  | nil => rfl
  | cons c s =>
      have hc : c ≠ ' ' := fun heq => h (congrArg some heq)
      simp [dataPrefix, List.dropPrefix?, hc]

theorem readLine_data {data : Text} (h : EndsTight data) :
    readLine parse (dataPrefix ++ data) =
      if data = doneText then .done else ((parse data).map LineRead.value).getD .skip := by
  have htrim : trim (dataPrefix ++ data) = dataPrefix ++ data :=
    trim_append h (c := 'd') (by decide) "ata: ".toList
  rw [readLine, htrim, dropPrefix_append]
  dsimp only
  split_ifs
  · rfl
  · cases parse data <;> rfl

theorem endsTight_doneText : EndsTight doneText := ⟨"[DONE".toList, ']', by decide, by decide⟩

theorem readLine_done : readLine parse (dataPrefix ++ doneText) = .done := by
  rw [readLine_data endsTight_doneText, if_pos rfl]

theorem readLine_compact (hnumber : NumberText number) (hdone : parse doneText = none) {v : Json}
    (hparse : parse (compact number v) = some v) :
    readLine parse (dataPrefix ++ compact number v) = .value v := by
  have hne : compact number v ≠ doneText := by
    intro heq
    rw [heq, hdone] at hparse
    cases hparse
  rw [readLine_data (endsTight_compact hnumber v), if_neg hne, hparse]
  rfl

theorem readLine_chomp (l : Text) : readLine parse (chomp l) = readLine parse l := by
  have htrim : trim (chomp l) = trim l := by
    unfold chomp
    split_ifs with hlast
    · obtain ⟨init, rfl⟩ := List.getLast?_eq_some_iff.mp hlast
      rw [List.dropLast_concat]
      exact (stripWith_append (List.forall_mem_singleton.mpr (by decide)) init).symm
    · rfl
  rw [readLine, htrim]
  rfl

theorem readLine_of_head {c : Char} (hc : isWhitespace c = false) (hd : c ≠ 'd') (l : Text) :
    readLine parse (c :: l) = .skip := by
  have hnone : (c :: l.rdropWhile isWhitespace).dropPrefix? dataPrefix = none := by
    simp [dataPrefix, List.dropPrefix?, hd]
  rw [readLine, trim, stripWith_cons hc, hnone]

theorem Noise.skipped {l : Text} (h : Noise parse l) : readLine parse l = .skip := by
  cases h with
  | blank _ h =>
      have htrim : trim l = [] := stripWith_of_all (List.all_eq_true.mp h)
      rw [readLine, htrim]
      rfl
  | comment l => exact readLine_of_head (by decide) (by decide) l
  | field name h l =>
      have hnames : ∀ name ∈ ["event", "id", "retry"], ∃ c rest, name.toList = c :: rest ∧
          isWhitespace c = false ∧ c ≠ 'd' := by
        simp only [List.forall_mem_cons, List.not_mem_nil, false_implies, implies_true, and_true]
        exact ⟨⟨'e', "vent".toList, by decide⟩, ⟨'i', ['d'], by decide⟩,
          ⟨'r', "etry".toList, by decide⟩⟩
      obtain ⟨c, rest, heq, hc, hd⟩ := hnames name h
      rw [heq]
      exact readLine_of_head hc hd _
  | malformed l hdone h =>
      have hsame : trim (l.rdropWhile isWhitespace) = trim l := stripWith_rdropWhile l
      rw [readLine, trim_data]
      generalize l.rdropWhile isWhitespace = tail at hsame
      rcases tail with - | ⟨c, data⟩
      · rfl
      · by_cases hspace : c = ' '
        · subst hspace
          have hdata : trim data = trim l := by
            have hblank : isWhitespace ' ' = true := by decide
            rw [← hsame, trim, stripWith_eq, stripWith_eq, List.dropWhile_cons_of_pos hblank]
          have hdrop : ("data:".toList ++ ' ' :: data).dropPrefix? dataPrefix = some data :=
            dropPrefix_append dataPrefix data
          have hne : data ≠ doneText := by
            rintro rfl
            exact hdone (hdata.symm.trans (by decide))
          rw [hdrop]
          dsimp only
          rw [if_neg hne, h data hdata]
        · have hhead : (c :: data).head? ≠ some ' ' := fun heq => hspace (Option.some.inj heq)
          rw [dropPrefix_data hhead]

end Line

/-! ### Whole streams -/

section Stream

variable {number : Number → Text} {parse : Text → Option Json}

/-- The lines that are written for some chunks. -/
def emittedLines (number : Number → Text) (chunks : List Json) : List Text :=
  (chunks.map Dlp.Event.data ++ [Dlp.Event.done]).flatMap (lines number)

theorem body_eq (chunks : List Json) :
    body number (chunks.map Dlp.Event.data ++ [Dlp.Event.done]) =
    Utf8.encode ((emittedLines number chunks).flatMap (· ++ ['\n'])) := by
  rw [body, emittedLines, List.flatMap_assoc, funext (written_eq number)]

theorem readLines_value {l : Text} {v : Json} (h : readLine parse l = .value v)
    (ls : List (Option Text)) : readLines parse (some l :: ls) = .ok v :: readLines parse ls := by
  rw [readLines, h]

theorem readLines_skip {l : Text} (h : readLine parse l = .skip) (ls : List (Option Text)) :
    readLines parse (some l :: ls) = readLines parse ls := by
  rw [readLines, h]

theorem readLines_done {l : Text} (h : readLine parse l = .done) (ls : List (Option Text)) :
    readLines parse (some l :: ls) = [] := by
  rw [readLines, h]

theorem readLines_cons_congr {l : Option Text} {ls ms : List (Option Text)}
    (h : readLines parse ls = readLines parse ms) :
    readLines parse (l :: ls) = readLines parse (l :: ms) := by
  cases l with
  | none => rw [readLines, readLines, h]
  | some l => rw [readLines, readLines, h]

theorem readLines_chomp (ls : List (Option Text)) :
    readLines parse (ls.map (Option.map chomp)) = readLines parse ls := by
  induction ls with
  | nil => rfl
  | cons l ls ih =>
      cases l with
      | none =>
          rw [List.map_cons, Option.map_none]
          exact readLines_cons_congr ih
      | some l =>
          rw [List.map_cons, Option.map_some, readLines, readLines, readLine_chomp, ih]

/-- Neither the reads nor the carriage returns make a difference. -/
theorem chatStream_eq_readLines (reads : List (List UInt8)) : chatStream parse reads =
    readLines parse ((LineStream.lines 10 reads.flatten).map Utf8.decode) := by
  have hmap : (LineStream.readAll 10 reads).map (fun l => (Utf8.decode l).map chomp) =
      ((LineStream.readAll 10 reads).map Utf8.decode).map (Option.map chomp) := by
    rw [List.map_map]
    rfl
  rw [chatStream, hmap, readLines_chomp, LineStream.readAll_eq]

/-- Lines that are skipped make no difference. -/
theorem readLines_woven {ls ms : List Text} (h : Woven (Noise parse) ls ms)
    (rest : List (Option Text)) :
    readLines parse (ms.map some ++ rest) = readLines parse (ls.map some ++ rest) := by
  induction h with
  | nil => rfl
  | line l _ ih => exact readLines_cons_congr ih
  | noise l hl _ _ ih => exact (readLines_skip hl.skipped _).trans ih

/-- The lines that are written are read back. -/
theorem readLines_emitted (hnumber : NumberText number) (hdone : parse doneText = none)
    {chunks : List Json} (hparse : ∀ v ∈ chunks, parse (compact number v) = some v)
    (rest : List (Option Text)) :
    readLines parse ((emittedLines number chunks).map some ++ rest) = chunks.map .ok := by
  induction chunks with
  | nil => exact readLines_done readLine_done _
  | cons v chunks ih =>
      obtain ⟨hv, hrest⟩ := List.forall_mem_cons.mp hparse
      have hblank : readLine parse [] = .skip := (Noise.blank [] rfl).skipped
      have hlines : emittedLines number (v :: chunks) =
          (dataPrefix ++ compact number v) :: [] :: emittedLines number chunks := rfl
      rw [hlines, List.map_cons, List.map_cons, List.cons_append, List.cons_append,
        readLines_value (readLine_compact hnumber hdone hv), readLines_skip hblank, ih hrest]
      rfl

theorem lineFeed_not_mem_lines (hnumber : NumberText number) (chunks : List Json) :
    ∀ l ∈ emittedLines number chunks, '\n' ∉ l := by
  have hdata : ∀ s : Text, '\n' ∉ s → '\n' ∉ dataPrefix ++ s := by
    intro s hs hmem
    rcases List.mem_append.mp hmem with h | h
    · exact absurd h (by decide)
    · exact hs h
  intro l hl
  obtain ⟨e, -, hmem⟩ := List.mem_flatMap.mp hl
  cases e with
  | data v =>
      rcases List.mem_pair.mp hmem with rfl | rfl
      · exact hdata _ (lineFeed_not_mem_compact hnumber v)
      · exact List.not_mem_nil
  | done =>
      rcases List.mem_pair.mp hmem with rfl | rfl
      · exact hdata _ (by decide)
      · exact List.not_mem_nil

theorem Woven.refl {noise : Text → Prop} (ls : List Text) : Woven noise ls ls := by
  induction ls with
  | nil => exact .nil
  | cons l ls ih => exact .line l ih

theorem Woven.lines {noise : Text → Prop} {ls ms : List Text} (h : Woven noise ls ms)
    (hls : ∀ l ∈ ls, '\n' ∉ l) : ∀ l ∈ ms, '\n' ∉ l := by
  induction h with
  | nil => exact hls
  | line l _ ih =>
      obtain ⟨hl, hrest⟩ := List.forall_mem_cons.mp hls
      exact List.forall_mem_cons.mpr ⟨hl, ih hrest⟩
  | noise l _ hline _ ih => exact List.forall_mem_cons.mpr ⟨hline, ih hls⟩

/-- The line reader finds the lines of a text in its bytes. -/
theorem lines_encode {ls : List Text} (h : ∀ l ∈ ls, '\n' ∉ l) (rest : List UInt8) :
    (LineStream.lines 10 (Utf8.encode (ls.flatMap (· ++ ['\n'])) ++ rest)).map Utf8.decode =
      ls.map some ++ (LineStream.lines 10 rest).map Utf8.decode := by
  have hencode : Utf8.encode (ls.flatMap (· ++ ['\n'])) =
      (ls.map Utf8.encode).flatMap (· ++ [10]) := by
    unfold Utf8.encode
    rw [List.flatMap_assoc, List.flatMap_map]
    simp only [List.flatMap_append]
    rfl
  have hbytes : ∀ bytes ∈ ls.map Utf8.encode, 10 ∉ bytes := by
    intro bytes hmem
    obtain ⟨l, hl, rfl⟩ := List.mem_map.mp hmem
    exact fun h10 => h l hl (Utf8.lineFeed_mem_encode.mp h10)
  rw [hencode, LineStream.lines_flatMap hbytes, List.map_append, List.map_map]
  congr 1
  exact List.map_congr_left fun l _ => Utf8.decode_encode l

theorem chatStream_woven (hnumber : NumberText number) (hdone : parse doneText = none)
    {chunks : List Json} (hparse : ∀ v ∈ chunks, parse (compact number v) = some v)
    {ls : List Text} (h : Woven (Noise parse) (emittedLines number chunks) ls)
    {rest : List UInt8} {reads : List (List UInt8)}
    (hreads : reads.flatten = Utf8.encode (ls.flatMap (· ++ ['\n'])) ++ rest) :
    chatStream parse reads = chunks.map .ok := by
  have hls := h.lines (lineFeed_not_mem_lines hnumber chunks)
  rw [chatStream_eq_readLines, hreads, lines_encode hls, readLines_woven h,
    readLines_emitted hnumber hdone hparse]

/-- **What is written for some chunks is read back as these chunks, wherever the stream is cut,
whatever lines without a chunk are in between, and whatever follows.** -/
theorem parses_back (hnumber : NumberText number) (hdone : parse doneText = none)
    (chunks : List Json) (hparse : ∀ v ∈ chunks, parse (compact number v) = some v) :
    (∀ rest reads, reads.flatten =
        body number (chunks.map Dlp.Event.data ++ [Dlp.Event.done]) ++ rest →
      chatStream parse reads = chunks.map .ok) ∧
    ∀ ls rest reads, Woven (Noise parse) (emittedLines number chunks) ls →
      reads.flatten = Utf8.encode (ls.flatMap (· ++ ['\n'])) ++ rest →
      chatStream parse reads = chunks.map .ok := by
  refine ⟨fun rest reads hreads => ?_, fun ls rest reads h hreads =>
    chatStream_woven hnumber hdone hparse h hreads⟩
  rw [body_eq] at hreads
  exact chatStream_woven hnumber hdone hparse (.refl _) hreads

theorem streamResponse_chunks (st : Dlp.StreamState) (items : List Dlp.Item) :
    ∃ chunks : List Json,
      Dlp.streamResponse st items = chunks.map Dlp.Event.data ++ [Dlp.Event.done] := by
  induction items generalizing st with
  | nil =>
      rw [Dlp.streamResponse, Dlp.tailEvents]
      split_ifs
      · exact ⟨[], rfl⟩
      · exact ⟨[Dlp.tailChunk st.session.flush.1], rfl⟩
  | cons item items ih =>
      have hdata : ∃ v, (Dlp.mapItem st item).1 = .data v := by
        unfold Dlp.mapItem
        cases item with
        | error err => exact ⟨_, rfl⟩
        | ok chunk =>
            dsimp only
            cases Dlp.choicesOf chunk with
            | none => exact ⟨_, rfl⟩
            | some choices => exact ⟨_, rfl⟩
      obtain ⟨v, hv⟩ := hdata
      obtain ⟨chunks, hchunks⟩ := ih (Dlp.mapItem st item).2
      exact ⟨v :: chunks, by rw [Dlp.streamResponse, hv, hchunks]; rfl⟩

theorem chatStream_streamResponse (hnumber : NumberText number) (hdone : parse doneText = none)
    (hparse : ∀ v, parse (compact number v) = some v) (st : Dlp.StreamState)
    (items : List Dlp.Item) {reads : List (List UInt8)}
    (hreads : reads.flatten = body number (Dlp.streamResponse st items)) :
    ∃ chunks : List Json,
      Dlp.streamResponse st items = chunks.map Dlp.Event.data ++ [Dlp.Event.done] ∧
        chatStream parse reads = chunks.map .ok := by
  obtain ⟨chunks, hchunks⟩ := streamResponse_chunks st items
  have hwhole : reads.flatten =
      Utf8.encode ((emittedLines number chunks).flatMap (· ++ ['\n'])) ++ [] := by
    rw [hreads, hchunks, body_eq, List.append_nil]
  exact ⟨chunks, hchunks, chatStream_woven hnumber hdone (fun v _ => hparse v) (.refl _) hwhole⟩

end Stream

/-! ### Two chunks -/

/-- A chunk with a delta. -/
def sampleChunk (content : Text) : Json :=
  .obj [("choices", .arr [.obj [("index", .num (.posInt 0)),
    ("delta", .obj [("content", .str content)])]])]

/-- The only number of the chunks. -/
def zeros (_ : Number) : Text := ['0']

/-- The only values of the stream. -/
def readSample (s : Text) : Option Json :=
  if s = compact zeros (sampleChunk "Hé".toList) then some (sampleChunk "Hé".toList)
  else if s = compact zeros (sampleChunk "llo".toList) then some (sampleChunk "llo".toList)
  else none

/-- The lines of two chunks, with a comment in front and broken data in between. -/
def sampleLines : List Text :=
  [": ping".toList, dataPrefix ++ compact zeros (sampleChunk "Hé".toList), [], "data: x".toList,
    dataPrefix ++ compact zeros (sampleChunk "llo".toList), [], dataPrefix ++ doneText, []]

/-- They are read back although the first one is cut inside its line, and inside a character. -/
theorem parses_back_sample :
    let bytes := Utf8.encode (sampleLines.flatMap (· ++ ['\n']))
    chatStream readSample [bytes.take 58, bytes.drop 58] =
      [.ok (sampleChunk "Hé".toList), .ok (sampleChunk "llo".toList)] := by
  intro bytes
  have hnumber : NumberText zeros := fun _ =>
    ⟨List.cons_ne_nil _ _, List.forall_mem_singleton.mpr (by decide)⟩
  have hdone : readSample doneText = none := by decide +kernel
  have hparse : ∀ v ∈ [sampleChunk "Hé".toList, sampleChunk "llo".toList],
      readSample (compact zeros v) = some v := by
    refine List.forall_mem_cons.mpr ⟨if_pos rfl, List.forall_mem_singleton.mpr ?_⟩
    exact (if_neg (by decide +kernel)).trans (if_pos rfl)
  have hbroken : ∀ l', trim l' = trim " x".toList → readSample l' = none := by
    intro l' hl
    have hfirst : l' ≠ compact zeros (sampleChunk "Hé".toList) := by
      rintro rfl
      exact absurd hl (by decide +kernel)
    have hsecond : l' ≠ compact zeros (sampleChunk "llo".toList) := by
      rintro rfl
      exact absurd hl (by decide +kernel)
    rw [readSample, if_neg hfirst, if_neg hsecond]
  have hwoven : Woven (Noise readSample)
      (emittedLines zeros [sampleChunk "Hé".toList, sampleChunk "llo".toList]) sampleLines :=
    .noise _ (.comment _) (by decide) (.line _ (.line _
      (.noise _ (.malformed " x".toList (by decide) hbroken) (by decide) (.refl _))))
  exact (parses_back hnumber hdone _ hparse).2 _ [] _ hwoven (by simp [bytes])

end FirewallLLM.Sse
