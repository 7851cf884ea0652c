import FirewallLLM.Dlp

/-! # Streaming restore

A response may arrive in any chunks.  `StreamRestore` restores what it emits and holds back
a trailing partial token; `deanonymize` restores a whole text.  The invariant of the stream
is that no token straddles the end of what was emitted (`splitBuf_spec`), so that the text
may be cut there (`Substitution.replaceEach_append`).

`stream_eq_deanonymize`: over the vaults of `sanitize` the outputs of any chunking, put
together, are the restored text, and no more than 65 bytes are held back. -/

namespace FirewallLLM.Dlp

open Substitution

/-! ### Tokens -/

/-- `[TYPE_<32 hex>]`. -/
structure IsToken (t : Text) : Prop where
  shape : ∃ (d : Detector) (hex : Text), t = '[' :: (d.typ ++ '_' :: hex ++ [']']) ∧
    hex.length = 32 ∧ ∀ c ∈ hex, c ∈ hexDigits

theorem hexFixed_length (width n : ℕ) : (hexFixed width n).length = width := by
  induction width generalizing n with
  | zero => rfl
  | succ width ih => rw [hexFixed, List.length_append, ih, List.length_singleton]

theorem mem_hexDigits_of_mem_hexFixed {width n : ℕ} {c : Char} (h : c ∈ hexFixed width n) :
    c ∈ hexDigits := by
  induction width generalizing n with
  | zero => cases h
  | succ width ih =>
      rcases List.mem_append.mp h with h | h
      · exact ih h
      · rw [List.mem_singleton.mp h]
        have hdigit : ∀ i < 16, hexDigits.getD i '0' ∈ hexDigits := by decide
        exact hdigit _ (Nat.mod_lt _ (by decide))

theorem isToken_formatToken (d : Detector) (draw : UInt64 × UInt64) :
    IsToken (formatToken d.typ draw) := by
  refine ⟨d, hex16 draw.1 ++ hex16 draw.2, rfl, ?_, ?_⟩
  · rw [List.length_append, hex16, hex16, hexFixed_length, hexFixed_length]
  · intro c hc
    rcases List.mem_append.mp hc with hc | hc <;> exact mem_hexDigits_of_mem_hexFixed hc

theorem typ_length (d : Detector) : 3 ≤ d.typ.length ∧ d.typ.length ≤ 14 := by
  cases d <;> decide

theorem isTokenChar_of_mem_typ {d : Detector} : ∀ c ∈ d.typ, StreamRestore.isTokenChar c = true := by
  have hall : d.typ.all StreamRestore.isTokenChar = true := by cases d <;> decide
  exact List.all_eq_true.mp hall

theorem isTokenChar_of_mem_hexDigits : ∀ c ∈ hexDigits, StreamRestore.isTokenChar c = true := by
  have hall : hexDigits.all StreamRestore.isTokenChar = true := by decide
  exact List.all_eq_true.mp hall

theorem underscore_not_mem_hexDigits : '_' ∉ hexDigits := by decide

theorem utf8Size_of_isTokenChar {c : Char} (h : StreamRestore.isTokenChar c = true) :
    c.utf8Size = 1 := by
  rw [Char.utf8Size_eq_one_iff]
  simp only [StreamRestore.isTokenChar, Char.isAlphanum, Char.isAlpha, Char.isUpper, Char.isLower,
    Char.isDigit, Bool.or_eq_true, Bool.and_eq_true, decide_eq_true_eq, beq_iff_eq] at h
  rcases h with (((h | h) | h) | h)
  · exact UInt32.le_trans h.2 (by decide)
  · exact UInt32.le_trans h.2 (by decide)
  · exact UInt32.le_trans h.2 (by decide)
  · rw [h]; decide

theorem IsToken.body {t : Text} (h : IsToken t) :
    ∃ body, t = '[' :: (body ++ [']']) ∧ body.length ≤ 47 ∧
      ∀ c ∈ body, StreamRestore.isTokenChar c = true := by
  obtain ⟨d, hex, rfl, hlen, hhex⟩ := h.shape
  refine ⟨d.typ ++ '_' :: hex, rfl, ?_, ?_⟩
  · have := (typ_length d).2
    simp only [List.length_append, List.length_cons]
    omega
  · intro c hc
    rcases List.mem_append.mp hc with hc | hc
    · exact isTokenChar_of_mem_typ c hc
    · rcases List.mem_cons.mp hc with rfl | hc
      · rfl
      · exact isTokenChar_of_mem_hexDigits c (hhex c hc)

theorem not_bracket_of_isTokenChar {c : Char} (h : StreamRestore.isTokenChar c = true) :
    c ≠ '[' ∧ c ≠ ']' := by
  constructor <;> rintro rfl <;> exact absurd h (by decide)

theorem IsToken.bracketed {t : Text} (h : IsToken t) : Bracketed '[' ']' t := by
  obtain ⟨body, rfl, -, hbody⟩ := h.body
  exact ⟨body, rfl, fun hm => (not_bracket_of_isTokenChar (hbody _ hm)).1 rfl,
    fun hm => (not_bracket_of_isTokenChar (hbody _ hm)).2 rfl⟩

/-! ### Splitting at the last occurrence -/

theorem rfind_eq_none {c : Char} {s : Text} : rfind c s = none ↔ c ∉ s := by
  induction s with
  | nil => simp [rfind]
  | cons d s ih =>
      rw [rfind, List.mem_cons, not_or]
      cases hs : rfind c s with
      | some q =>
          have hmem : c ∈ s := by
            by_contra hc
            rw [ih.mpr hc] at hs
            cases hs
          simp [hmem]
      | none =>
          have hmem := ih.mp hs
          by_cases hd : d = c
          · simp [hd]
          · simp [hd, hmem, Ne.symm hd]

theorem rfind_append {c : Char} (pre : Text) {post : Text} (h : c ∉ post) :
    rfind c (pre ++ c :: post) = some (pre, c :: post) := by
  induction pre with
  | nil =>
      rw [List.nil_append, rfind, rfind_eq_none.mpr h]
      exact if_pos rfl
  | cons d pre ih => rw [List.cons_append, rfind, ih]

theorem rfind_eq_some {c : Char} {s pre post : Text} (h : rfind c s = some (pre, post)) :
    s = pre ++ post ∧ ∃ rest, post = c :: rest ∧ c ∉ rest := by
  induction s generalizing pre with
  | nil => cases h
  | cons d s ih =>
      rw [rfind] at h
      cases hs : rfind c s with
      | some q =>
          obtain ⟨q, r⟩ := q
          rw [hs] at h
          obtain ⟨rfl, rfl⟩ := Prod.mk.inj (Option.some.inj h)
          obtain ⟨hs', hc⟩ := ih hs
          exact ⟨by rw [hs']; rfl, hc⟩
      | none =>
          rw [hs] at h
          by_cases hd : d = c
          · rw [if_pos hd] at h
            obtain ⟨rfl, rfl⟩ := Prod.mk.inj (Option.some.inj h)
            exact ⟨rfl, s, by rw [hd], rfind_eq_none.mp hs⟩
          · rw [if_neg hd] at h
            cases h

/-! ### The mask label -/

theorem maskLabel_eq (d : Detector) {hex : Text} (hhex : ∀ c ∈ hex, c ∈ hexDigits) :
    maskLabel ('[' :: (d.typ ++ '_' :: hex ++ [']'])) = '[' :: (d.typ ++ [']']) := by
  have hlast : ((d.typ ++ '_' :: hex) ++ [']']).getLast? = some ']' := List.getLast?_concat
  have hsplit := rfind_append d.typ (fun hm => underscore_not_mem_hexDigits (hhex _ hm))
  simp only [maskLabel, stripPrefix, if_true, Option.bind_some, stripSuffix, hlast,
    List.dropLast_concat, rsplitOnce, hsplit, Option.map_some, Option.elim_some]

theorem IsToken.maskLabel {t : Text} (h : IsToken t) :
    Bracketed '[' ']' (Dlp.maskLabel t) ∧ (Dlp.maskLabel t).length ≤ 16 := by
  obtain ⟨d, hex, rfl, -, hhex⟩ := h.shape
  rw [maskLabel_eq d hhex]
  constructor
  · exact ⟨d.typ, rfl, fun hm => (not_bracket_of_isTokenChar (isTokenChar_of_mem_typ _ hm)).1 rfl,
      fun hm => (not_bracket_of_isTokenChar (isTokenChar_of_mem_typ _ hm)).2 rfl⟩
  · have := (typ_length d).2
    simp only [List.length_cons, List.length_append, List.length_nil]
    omega

theorem IsToken.length_gt {t : Text} (h : IsToken t) : 16 < t.length := by
  obtain ⟨d, hex, rfl, hlen, -⟩ := h.shape
  simp only [List.length_cons, List.length_append, hlen, List.length_nil]
  omega

/-! ### Vaults -/

/-- A vault of `sanitize`: tokens for non-empty values without brackets, none of which is
part of a token. -/
structure Vault.WellFormed (vault : Vault) : Prop where
  nodup : (vault.map Prod.fst).Nodup
  token : ∀ e ∈ vault, IsToken e.1
  nonempty : ∀ e ∈ vault, e.2 ≠ []
  unmarked : ∀ e ∈ vault, Unmarked '[' ']' e.2
  notInfix : ∀ e ∈ vault, ∀ e' ∈ vault, ¬ e.2 <:+: e'.1

/-- The replacements that `deanonymize` makes, in its order. -/
def replacements (vault : Vault) (scope : Scope) (policy : String) : List (Text × Text) :=
  vault.map (fun e => (e.1, replacement scope policy e.1 e.2))

theorem deanonymize_eq (text : Text) (vault : Vault) (scope : Scope) (policy : String) :
    deanonymize text vault scope policy = replaceEach (replacements vault scope policy) text := by
  unfold deanonymize replaceEach replacements
  rw [List.foldl_map]

theorem Vault.WellFormed.replaceable {vault : Vault} (h : vault.WellFormed) (scope : Scope)
    (policy : String) : Replaceable '[' ']' (replacements vault scope policy) := by
  have hfst : (replacements vault scope policy).map Prod.fst = vault.map Prod.fst := by
    rw [replacements, List.map_map]
    rfl
  have hmem : ∀ e ∈ replacements vault scope policy, ∃ e' ∈ vault,
      e = (e'.1, replacement scope policy e'.1 e'.2) := by
    intro e he
    obtain ⟨e', he', rfl⟩ := List.mem_map.mp he
    exact ⟨e', he', rfl⟩
  refine ⟨by rw [hfst]; exact h.nodup, ?_, ?_, ?_⟩
  · intro e he
    obtain ⟨e', he', rfl⟩ := hmem e he
    exact (h.token e' he').bracketed
  · intro e he d hd
    obtain ⟨e', he', rfl⟩ := hmem e he
    obtain ⟨d', hd', rfl⟩ := hmem d hd
    dsimp only [replacement]
    split_ifs
    · exact Or.inr ⟨h.unmarked e' he', h.notInfix e' he' d' hd'⟩
    · exact Or.inl (h.token e' he').maskLabel.1
  · intro e he d hd
    obtain ⟨e', he', rfl⟩ := hmem e he
    obtain ⟨d', hd', rfl⟩ := hmem d hd
    have htoken := h.token d' hd'
    dsimp only [replacement]
    split_ifs
    · intro heq
      exact htoken.bracketed.not_unmarked (by rw [← heq]; exact h.unmarked e' he')
    · intro heq
      have h1 := (h.token e' he').maskLabel.2
      have h2 := htoken.length_gt
      rw [heq] at h1
      omega

/-! ### The cut -/

@[simp] theorem byteLen_append (s t : Text) : byteLen (s ++ t) = byteLen s + byteLen t := by
  simp [byteLen]

theorem byteLen_of_isTokenChar {s : Text} (h : ∀ c ∈ s, StreamRestore.isTokenChar c = true) :
    byteLen s = s.length := by
  induction s with
  | nil => rfl
  | cons c s ih =>
      have hc := utf8Size_of_isTokenChar (h c List.mem_cons_self)
      have hs := ih (fun d hd => h d (List.mem_cons_of_mem _ hd))
      simp only [byteLen, List.map_cons, List.sum_cons, List.length_cons] at hs ⊢
      omega

/-- The part of a token that ends a buffer is what the buffer has from its last `[` on. -/
theorem IsToken.rfind_suffix {t a b buf : Text} (ht : IsToken t) (hab : t = a ++ b) (ha : a ≠ [])
    (hsuf : a <:+ buf) : ∃ pre, rfind '[' buf = some (pre, a) := by
  obtain ⟨body, hbody, -⟩ := ht.body
  obtain ⟨x, a, rfl⟩ := List.exists_cons_of_ne_nil ha
  obtain ⟨rfl, -⟩ := List.cons.inj (hbody.symm.trans hab)
  have hopen : '[' ∉ a := by
    have := ht.bracketed.not_mem_of_split (by decide) (a := ['[']) hab (List.cons_ne_nil _ _)
    exact fun hm => this (List.mem_append_left _ hm)
  obtain ⟨pre, rfl⟩ := hsuf
  exact ⟨pre, rfind_append pre hopen⟩

/-- A proper beginning of a token passes the test for a partial token. -/
theorem IsToken.partial_of_split {t a b : Text} (ht : IsToken t) (hab : t = a ++ b) (ha : a ≠ [])
    (hb : b ≠ []) : (!a.contains ']' && a.tail.all StreamRestore.isTokenChar) = true ∧
      byteLen a ≤ 48 := by
  obtain ⟨body, hbody, hlen, hchars⟩ := ht.body
  obtain ⟨x, a, rfl⟩ := List.exists_cons_of_ne_nil ha
  obtain ⟨rfl, hrest⟩ := List.cons.inj (hbody.symm.trans hab)
  have hpre : a <+: body := by
    rcases List.prefix_or_prefix_of_prefix (⟨b, hrest.symm⟩ : a <+: body ++ [']'])
      (List.prefix_append body [']']) with h | ⟨r, hr⟩
    · exact h
    · -- `a` would have to go past the body and leave nothing of the token
      have hsplit : body ++ [']'] = body ++ (r ++ b) := by
        rw [← List.append_assoc, hr]
        exact hrest
      have hr' := List.append_cancel_left hsplit
      cases r with
      | nil => rw [← hr, List.append_nil]
      | cons y r =>
          obtain ⟨-, hnil⟩ := List.cons.inj hr'
          exact absurd (List.append_eq_nil_iff.mp hnil.symm).2 hb
  have hall : ∀ c ∈ a, StreamRestore.isTokenChar c = true := fun c hc => hchars c (hpre.subset hc)
  refine ⟨?_, ?_⟩
  · simp only [Bool.and_eq_true, Bool.not_eq_true', List.tail_cons, List.all_eq_true]
    refine ⟨?_, hall⟩
    rw [List.contains_eq_mem, decide_eq_false_iff_not, List.mem_cons, not_or]
    exact ⟨by decide, fun hm => (not_bracket_of_isTokenChar (hall _ hm)).2 rfl⟩
  · have h1 : byteLen ('[' :: a) = 1 + byteLen a := by
      simp only [byteLen, List.map_cons, List.sum_cons]
      rfl
    have h2 := hpre.length_le
    rw [h1, byteLen_of_isTokenChar hall]
    omega

/-- The cut of a buffer: nothing is lost, at most 65 bytes are held back, and no token
straddles the cut, whatever the stream goes on with. -/
theorem splitBuf_spec (buf : Text) :
    (StreamRestore.splitBuf buf).1 ++ (StreamRestore.splitBuf buf).2 = buf ∧
      byteLen (StreamRestore.splitBuf buf).2 ≤ 65 ∧
      ∀ t, IsToken t → ∀ rest, ¬ Straddles t (StreamRestore.splitBuf buf).1
        ((StreamRestore.splitBuf buf).2 ++ rest) := by
  unfold StreamRestore.splitBuf
  cases hcut : StreamRestore.cut buf with
  | none =>
      refine ⟨List.append_nil buf, Nat.zero_le 65, ?_⟩
      rintro t ht rest ⟨a, b, hab, ha, hb, hsuf, -⟩
      obtain ⟨pre, hpre⟩ := ht.rfind_suffix hab ha hsuf
      rw [StreamRestore.cut, hpre, Option.filter_some, if_pos (ht.partial_of_split hab ha hb).1] at hcut
      cases hcut
  | some q =>
      obtain ⟨head, tail⟩ := q
      have hfind : rfind '[' buf = some (head, tail) := (Option.filter_eq_some_iff.mp hcut).1
      obtain ⟨hbuf, hopen⟩ := rfind_eq_some hfind
      dsimp only
      split_ifs with hlen
      · refine ⟨hbuf.symm, ?_, ?_⟩
        · rw [hbuf, byteLen_append] at hlen
          dsimp only
          omega
        · rintro t ht rest ⟨a, b, hab, ha, hb, -, hpre⟩
          -- the rest of the token would have to begin with the bracket of the carry
          obtain ⟨y, b, rfl⟩ := List.exists_cons_of_ne_nil hb
          obtain ⟨r, rfl, -⟩ := hopen
          obtain ⟨rfl, -⟩ := List.cons_prefix_cons.mp hpre
          exact ht.bracketed.not_mem_of_split (by decide) hab ha List.mem_cons_self
      · refine ⟨List.append_nil buf, Nat.zero_le 65, ?_⟩
        rintro t ht rest ⟨a, b, hab, ha, hb, hsuf, -⟩
        -- the partial token is the overlong run, which no token begins with
        obtain ⟨pre, hpre⟩ := ht.rfind_suffix hab ha hsuf
        obtain ⟨rfl, rfl⟩ := Prod.mk.inj (Option.some.inj (hfind.symm.trans hpre))
        have := (ht.partial_of_split hab ha hb).2
        rw [hbuf, byteLen_append] at hlen
        omega

/-! ### The stream -/

namespace StreamRestore

@[simp] theorem restore_nil (s : StreamRestore) : s.restore [] = [] := by
  unfold restore deanonymize
  induction s.vault with
  | nil => rfl
  | cons e vault ih => exact ih

/-- The outputs of a session that holds some text back, put together. -/
theorem stream_eq_restore {s : StreamRestore} (h : s.vault.WellFormed) (chunks : List Text) :
    s.stream chunks = s.restore (s.carry ++ chunks.flatten) := by
  induction chunks generalizing s with
  | nil =>
      rw [stream, flush, List.flatten_nil, List.append_nil]
      split_ifs with hcarry
      · rw [hcarry, restore_nil]
      · rfl
  | cons chunk chunks ih =>
      obtain ⟨hsplit, -, hcut⟩ := splitBuf_spec (s.carry ++ chunk)
      have hrest := ih (s := (s.feed chunk).2) h
      rw [stream, hrest]
      change s.restore (splitBuf (s.carry ++ chunk)).1 ++
        s.restore ((splitBuf (s.carry ++ chunk)).2 ++ chunks.flatten) = _
      unfold restore
      rw [deanonymize_eq, deanonymize_eq, ← replaceEach_append (by decide)
        (h.replaceable s.scope s.policy), ← List.append_assoc, hsplit, ← deanonymize_eq,
        List.flatten_cons, List.append_assoc]
      intro e he
      obtain ⟨e', he', rfl⟩ := List.mem_map.mp he
      exact hcut e'.1 (h.token e' he') chunks.flatten

theorem byteLen_carry_after {s : StreamRestore} (h : byteLen s.carry ≤ 65) (chunks : List Text) :
    byteLen (s.after chunks).carry ≤ 65 := by
  induction chunks generalizing s with
  | nil => exact h
  | cons chunk chunks ih =>
      exact ih (s := (s.feed chunk).2) (splitBuf_spec (s.carry ++ chunk)).2.1

end StreamRestore

/-- **Streaming restore equals batch restore**, for every chunking of every text, every
iteration order of the vault and both policies; never are more than 65 bytes held back. -/
theorem stream_eq_deanonymize {vault vault' : Vault} (h : vault.WellFormed)
    (hperm : vault.Perm vault') (scope : Scope) (policy : String) (chunks : List Text) :
    (StreamRestore.new vault scope policy).stream chunks =
        deanonymize chunks.flatten vault' scope policy ∧
      ∀ n, byteLen ((StreamRestore.new vault scope policy).after (chunks.take n)).carry ≤ 65 := by
  have hcarry : byteLen (StreamRestore.new vault scope policy).carry ≤ 65 := Nat.zero_le 65
  refine ⟨?_, fun n => StreamRestore.byteLen_carry_after hcarry _⟩
  rw [StreamRestore.stream_eq_restore h]
  change deanonymize ([] ++ chunks.flatten) vault scope policy = _
  rw [List.nil_append, deanonymize_eq, deanonymize_eq]
  exact replaceEach_perm (by decide) (h.replaceable scope policy) (hperm.map _) _

/-- A token of an e-mail address. -/
def sampleToken : Text := formatToken Detector.email.typ (171, 205)

/-- A stream that cuts the token in two. -/
theorem stream_one_token :
    (StreamRestore.new [(sampleToken, "a@b.ru".toList)] [(sampleToken, 1)] "restore").stream
        ["to [EMAI".toList, "L_00000000000000ab00000000000000cd] x".toList] =
      deanonymize ["to [EMAI".toList, "L_00000000000000ab00000000000000cd] x".toList].flatten
        [(sampleToken, "a@b.ru".toList)] [(sampleToken, 1)] "restore" := by
  refine (stream_eq_deanonymize ⟨?_, ?_, ?_, ?_, ?_⟩ (List.Perm.refl _) _ _ _).1
  · decide
  · rintro e he
    obtain rfl := List.mem_singleton.mp he
    exact (isToken_formatToken .email (171, 205))
  · decide
  · rintro e he
    obtain rfl := List.mem_singleton.mp he
    exact ⟨by decide, by decide⟩
  · decide

end FirewallLLM.Dlp
