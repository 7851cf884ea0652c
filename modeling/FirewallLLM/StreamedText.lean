import FirewallLLM.DlpRestore
import FirewallLLM.StreamEnds

/-! # The text of a stream, restored

Both gateways restore a stream piece by piece and hold back what can be the beginning of a token.
The Python gateway does it over a sanitizer of its own, and all that is asked of the sanitizer is
that it may be applied to the parts of a text, where no token straddles the cut.

`streams_restored`: however the text is cut into deltas, the Python gateway emits the restored
text as a whole, less what it holds back when the provider raises; and over the same tokens and
values it emits what the Rust gateway emits. -/

namespace FirewallLLM

open Dlp (Text)
open Substitution (Straddles Bracketed)

namespace Py

/-! ### Tokens and cuts -/

/-- `[`, at most 64 characters of a token, and `]`. -/
structure IsToken (t : Text) : Prop where
  shape : ∃ body, t = '[' :: (body ++ [']']) ∧ body.length ≤ 64 ∧ ∀ c ∈ body, isTokenChar c = true

/-- The sanitizer may be applied to the parts of a text, where no token straddles the cut. -/
def Cuttable (tokens : List Text) (restore : Text → Text) : Prop :=
  ∀ x y, (∀ t ∈ tokens, ¬ Straddles t x y) → restore (x ++ y) = restore x ++ restore y

/-- The text of a stream that the generator has not held back when the provider raised. -/
def Upstream.released (w : Upstream) : Text :=
  if w.ending.isOk then w.received else (splitPartial w.received).1

theorem not_bracket_of_isTokenChar {c : Char} (h : isTokenChar c = true) :
    c ≠ '[' ∧ c ≠ ']' ∧ c ≠ '\n' := by
  refine ⟨?_, ?_, ?_⟩ <;> rintro rfl <;> exact absurd h (by decide)

theorem IsToken.bracketed {t : Text} (h : IsToken t) : Bracketed '[' ']' t := by
  obtain ⟨body, rfl, -, hbody⟩ := h.shape
  exact ⟨body, rfl, fun hm => (not_bracket_of_isTokenChar (hbody _ hm)).1 rfl,
    fun hm => (not_bracket_of_isTokenChar (hbody _ hm)).2.1 rfl⟩

theorem IsToken.endsOpen {t a b x : Text} (ht : IsToken t) (hab : t = a ++ b) (ha : a ≠ [])
    (hb : b ≠ []) (hsuf : a <:+ x) : EndsOpen x := by
  obtain ⟨body, hbody, hlen, hchars⟩ := ht.shape
  obtain ⟨y, word, rfl⟩ := List.exists_cons_of_ne_nil ha
  obtain ⟨rfl, hrest⟩ := List.cons.inj (hbody.symm.trans hab)
  have hrest : body ++ [']'] = word ++ b := hrest
  -- the beginning without its bracket is a beginning of the body
  have hpre : word <+: body := by
    refine List.prefix_of_prefix_length_le ⟨b, hrest.symm⟩ (List.prefix_append body [']']) ?_
    have hlength := congrArg List.length hrest
    have hpos := List.length_pos_of_ne_nil hb
    simp only [List.length_append, List.length_singleton] at hlength
    omega
  have hword : ∀ c ∈ word, isTokenChar c = true := fun c hc => hchars c (hpre.subset hc)
  have hlast : word.getLast? ≠ some '\n' := fun hnewline =>
    (not_bracket_of_isTokenChar (hword _ (List.mem_of_getLast? hnewline))).2.2 rfl
  obtain ⟨before, rfl⟩ := hsuf
  refine ⟨before, word, rfl, ?_⟩
  have hle : word.length ≤ 64 := hpre.length_le.trans hlen
  simp only [openTail, if_neg hlast, hle, decide_true, Bool.true_and]
  exact List.all_eq_true.mpr hword

theorem splitPartial_snd_open (t : Text) :
    (splitPartial t).2 = [] ∨ ∃ word, (splitPartial t).2 = '[' :: word := by
  induction t with
  | nil => exact .inl rfl
  | cons c cs ih =>
      by_cases hopen : c = '[' ∧ openTail cs = true
      · obtain ⟨rfl, -⟩ := id hopen
        exact .inr ⟨cs, by rw [splitPartial_open hopen]⟩
      · rwa [splitPartial_closed hopen]

/-- No token straddles the cut, whatever the stream goes on with. -/
theorem IsToken.not_straddles {t : Text} (ht : IsToken t) (buf rest : Text) :
    ¬ Straddles t (splitPartial buf).1 ((splitPartial buf).2 ++ rest) := by
  rintro ⟨a, b, hab, ha, hb, hsuf, hpre⟩
  rcases splitPartial_snd_open buf with hnone | ⟨word, hheld⟩
  · -- nothing is held back, so that the text does not end in the beginning of a token
    have happend := splitPartial_append buf
    rw [hnone, List.append_nil] at happend
    rw [happend] at hsuf
    exact (splitPartial_eq_nil buf).mp hnone (ht.endsOpen hab ha hb hsuf)
  · -- the rest of the token would have to begin with a bracket
    obtain ⟨y, b, rfl⟩ := List.exists_cons_of_ne_nil hb
    rw [hheld] at hpre
    obtain ⟨rfl, -⟩ := List.cons_prefix_cons.mp hpre
    exact ht.bracketed.not_mem_of_split (by decide) hab ha List.mem_cons_self

/-! ### The stream -/

section Restored

variable {tokens : List Text} {restore : Text → Text}

theorem Cuttable.nil (h : Cuttable tokens restore) : restore [] = [] := by
  have hnil : restore ([] ++ []) = restore [] ++ restore [] := h [] [] fun t _ => by
    rintro ⟨a, b, -, ha, -, hsuf, -⟩
    exact ha (List.suffix_nil.mp hsuf)
  rw [List.append_nil] at hnil
  exact List.self_eq_append_left.mp hnil

theorem Cuttable.cut (h : Cuttable tokens restore) (htokens : ∀ t ∈ tokens, IsToken t)
    (buf rest : Text) : restore (buf ++ rest) =
      restore (splitPartial buf).1 ++ restore ((splitPartial buf).2 ++ rest) := by
  rw [← h _ _ fun t ht => (htokens t ht).not_straddles buf rest, ← List.append_assoc,
    splitPartial_append]

/-- The pieces that are emitted, and what is held back, are the restored text. -/
theorem outputs_restored (h : Cuttable tokens restore) (htokens : ∀ t ∈ tokens, IsToken t)
    (carry : Text) (ds : List Text) :
    ((outputs cut carry ds).map restore).flatten ++ restore (stateAfter cut carry ds) =
      restore (carry ++ ds.flatten) := by
  induction ds generalizing carry with
  | nil => simp [outputs, stateAfter]
  | cons d ds ih =>
      have hafter : stateAfter cut carry (d :: ds) = stateAfter cut (cut carry d).2 ds := rfl
      rw [outputs, hafter, List.map_cons, List.flatten_cons, List.append_assoc, ih,
        List.flatten_cons, ← List.append_assoc carry, h.cut htokens (carry ++ d)]
      rfl

theorem flushed_eq (h : Cuttable tokens restore) (carry : Text) :
    flushed restore carry = restore carry := by
  unfold flushed
  split_ifs with hnil
  · rw [hnil, h.nil]
  · rfl

/-- **The generator emits the restored text as a whole**, less what it holds back when the provider
raises. -/
theorem emitted_restored (h : Cuttable tokens restore) (htokens : ∀ t ∈ tokens, IsToken t)
    (c : Caller) (payload : Fields) (rsv : Option Reservation)
    (processText : Text → Except Exn Text) (w : Upstream) :
    emitted c payload rsv w (ctxOver processText (some restore)) = restore w.released := by
  set ds := w.items.flatMap chunkTexts with hds
  have hreceived : ds.flatten = w.received := rfl
  have hheld : stateAfter cut [] ds = (splitPartial w.received).2 := stateAfter_eq rfl ds
  have hall := outputs_restored h htokens [] ds
  rw [hheld, List.nil_append, hreceived] at hall
  have hcut := h.cut htokens w.received []
  rw [List.append_nil, List.append_nil] at hcut
  rw [emitted_over, flushed_eq h, ← hds, Upstream.released]
  by_cases hending : w.ending.isOk = true
  · rw [if_pos hending, if_pos hending, hall]
  · rw [if_neg hending, if_neg hending, List.append_nil]
    exact List.append_cancel_right (hall.trans hcut)

end Restored

end Py

/-! ### Both gateways -/

namespace Dlp

/-- The tokens of the Rust gateway are short enough for the Python one. -/
theorem IsToken.python {t : Text} (h : IsToken t) : Py.IsToken t := by
  obtain ⟨body, rfl, hlen, hchars⟩ := h.body
  refine ⟨body, rfl, by omega, fun c hc => ?_⟩
  have hchar := hchars c hc
  simp only [StreamRestore.isTokenChar, Bool.or_eq_true, beq_iff_eq] at hchar
  simp only [Py.isTokenChar, Bool.or_eq_true, decide_eq_true_eq]
  exact hchar

theorem Vault.WellFormed.cuttable {vault : Vault} (h : vault.WellFormed) (scope : Scope)
    (policy : String) :
    Py.Cuttable (vault.map Prod.fst) (fun t => deanonymize t vault scope policy) := by
  intro x y hcut
  simp only [deanonymize_eq]
  refine Substitution.replaceEach_append (by decide) (h.replaceable scope policy) fun e he => ?_
  obtain ⟨e', he', rfl⟩ := List.mem_map.mp he
  exact hcut e'.1 (List.mem_map_of_mem he')

theorem text_restored (s : StreamRestore) (ds : Deltas) :
    Deltas.text (restored s ds) = s.stream (ds.map Prod.snd) := by
  induction ds generalizing s with
  | nil => exact List.append_nil _
  | cons e ds ih =>
      obtain ⟨i, d⟩ := e
      exact congrArg ((s.feed d).1 ++ ·) (ih _)

theorem respond_restored {vault : Vault} (h : vault.WellFormed) (scope : Scope) (policy : String)
    (items : List Item) : Deltas.text (eventDeltas (respond vault scope policy items)) =
      deanonymize (Deltas.text (fed items)) vault scope policy := by
  rw [respond, text_streamResponse, text_restored]
  exact StreamRestore.stream_eq_restore h _

end Dlp

/-- **Both gateways restore a stream as a whole.**  The Python gateway emits what its sanitizer
makes of the text that arrived, less what is held back when the provider raises; and over a
sanitizer that replaces as the Rust gateway does, it emits what the Rust gateway emits for the same
text. -/
theorem streams_restored {tokens : List Text} {restore : Text → Text}
    (htokens : ∀ t ∈ tokens, Py.IsToken t) (hcut : Py.Cuttable tokens restore) {vault : Dlp.Vault}
    (hvault : vault.WellFormed) (scope : Dlp.Scope) (policy : String) (c : Py.Caller)
    (payload : Py.Fields) (rsv : Option Py.Reservation) (processText : Text → Except Py.Exn Text)
    (w : Py.Upstream) :
    Py.emitted c payload rsv w (Py.ctxOver processText (some restore)) = restore w.released ∧
      ∀ items : List Dlp.Item, Dlp.Deltas.text (Dlp.fed items) = w.released →
        Dlp.Deltas.text (Dlp.eventDeltas (Dlp.respond vault scope policy items)) =
          Py.emitted c payload rsv w
            (Py.ctxOver processText (some fun t => Dlp.deanonymize t vault scope policy)) := by
  refine ⟨Py.emitted_restored hcut htokens c payload rsv processText w, fun items hsame => ?_⟩
  have htokens' : ∀ t ∈ vault.map Prod.fst, Py.IsToken t := by
    intro t ht
    obtain ⟨e, he, rfl⟩ := List.mem_map.mp ht
    exact (hvault.token e he).python
  rw [Py.emitted_restored (hvault.cuttable scope policy) htokens', Dlp.respond_restored hvault,
    hsame]

/-! ### A token that is cut in two -/

/-- The vault of one e-mail address. -/
def emailVault : Dlp.Vault := [(Dlp.sampleToken, "a@b.ru".toList)]

theorem wellFormed_emailVault : emailVault.WellFormed := by
  refine ⟨by decide, ?_, by decide, ?_, by decide⟩
  · rintro e he
    obtain rfl := List.mem_singleton.mp he
    exact Dlp.isToken_formatToken .email (171, 205)
  · rintro e he
    obtain rfl := List.mem_singleton.mp he
    exact ⟨by decide, by decide⟩

/-- A delta of the only choice. -/
def deltaChunk (text : String) : Py.Value :=
  .dict [("choices", .list [.dict [("index", .int 0),
    ("delta", .dict [("content", .str text.toList)])]])]

/-- The provider raises behind another open bracket. -/
def cutToken : Py.Upstream :=
  ⟨[deltaChunk "to [EMAI", deltaChunk "L_00000000000000ab00000000000000cd], [x"],
    .error (.provider "reset"), fun _ => Py.quiet⟩

theorem streams_restored_cutToken :
    let sanitizer := fun t => Dlp.deanonymize t emailVault [(Dlp.sampleToken, 1)] "restore"
    Py.emitted ⟨"id", "c", "p", "m"⟩ [] none cutToken (Py.ctxOver .ok (some sanitizer)) =
        "to a@b.ru, ".toList ∧
      Dlp.Deltas.text (Dlp.eventDeltas (Dlp.respond emailVault [(Dlp.sampleToken, 1)] "restore"
          [Dlp.choiceChunk 0 "to [EMAI",
            Dlp.choiceChunk 0 "L_00000000000000ab00000000000000cd], "])) =
        "to a@b.ru, ".toList := by
  intro sanitizer
  have htokens : ∀ t ∈ emailVault.map Prod.fst, Py.IsToken t := by
    intro t ht
    obtain rfl := List.mem_singleton.mp ht
    exact (Dlp.isToken_formatToken .email (171, 205)).python
  obtain ⟨hpython, hrust⟩ := streams_restored htokens
    (wellFormed_emailVault.cuttable [(Dlp.sampleToken, 1)] "restore") wellFormed_emailVault
    [(Dlp.sampleToken, 1)] "restore" ⟨"id", "c", "p", "m"⟩ [] none .ok cutToken
  have hreleased : cutToken.released =
      "to [EMAIL_00000000000000ab00000000000000cd], ".toList := by decide
  have hsanitized : sanitizer cutToken.released = "to a@b.ru, ".toList := by
    rw [hreleased]
    decide
  refine ⟨hpython.trans hsanitized, (hrust _ ?_).trans (hpython.trans hsanitized)⟩
  rw [hreleased]
  decide

end FirewallLLM
