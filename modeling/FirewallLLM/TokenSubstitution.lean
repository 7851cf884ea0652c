import FirewallLLM.DlpRestore

/-! # Restoring as one substitution

`deanonymize` replaces token after token in the whole text, in the iteration order of the vault.
Over tokens in brackets and values without them no replacement touches what another one has put
in, and all of them together are one pass over the text.

`deanonymize_onePass`: in each order the result is the text with each token replaced by its value
or by its label. -/

namespace FirewallLLM.Dlp

open Substitution

/-- A token with its value. -/
structure Issued where
  detector : Detector
  hex : Text
  value : Text
  hex_length : hex.length = 32
  hex_digits : ∀ c ∈ hex, c ∈ hexDigits
  value_nonempty : value ≠ []
  value_unmarked : '[' ∉ value ∧ ']' ∉ value

namespace Issued

/-- `[TYPE_<32 hex>]` -/
def token (e : Issued) : Text := '[' :: (e.detector.typ ++ '_' :: e.hex ++ [']'])

/-- `[TYPE]` -/
def label (e : Issued) : Text := '[' :: (e.detector.typ ++ [']'])

/-- What stands in the place of the token. -/
def restored (e : Issued) (scope : Scope) (policy : String) : Text :=
  if policy = "restore" ∧ (scope.map Prod.fst).contains e.token then e.value else e.label

theorem isToken (e : Issued) : IsToken e.token :=
  ⟨e.detector, e.hex, rfl, e.hex_length, e.hex_digits⟩

theorem replacement_eq (e : Issued) (scope : Scope) (policy : String) :
    replacement scope policy e.token e.value = e.restored scope policy := by
  have hscope : (policy = "restore" ∧ e.token ∈ scope.map Prod.fst) ↔
      (policy = "restore" ∧ (scope.map Prod.fst).contains e.token = true) :=
    and_congr_right fun _ => List.contains_iff_mem.symm
  rw [replacement, restored, token, maskLabel_eq e.detector e.hex_digits, label]
  exact if_congr hscope rfl rfl

end Issued

/-- Issued tokens, all different, of which no value is part of a token. -/
structure TokenVault where
  entries : List Issued
  nodup : (entries.map Issued.token).Nodup
  notInfix : ∀ e ∈ entries, ∀ e' ∈ entries, ¬ e.value <:+: e'.token

namespace TokenVault

/-- The map from tokens to values. -/
def vault (v : TokenVault) : Vault := v.entries.map (fun e => (e.token, e.value))

/-- What stands in the place of each token. -/
def table (v : TokenVault) (scope : Scope) (policy : String) : List (Text × Text) :=
  v.entries.map (fun e => (e.token, e.restored scope policy))

theorem wellFormed (v : TokenVault) : v.vault.WellFormed := by
  have hkeys : v.vault.map Prod.fst = v.entries.map Issued.token := by
    rw [vault, List.map_map]
    rfl
  have hmem : ∀ p ∈ v.vault, ∃ e ∈ v.entries, p = (e.token, e.value) := by
    intro p hp
    obtain ⟨e, he, rfl⟩ := List.mem_map.mp hp
    exact ⟨e, he, rfl⟩
  refine ⟨by rw [hkeys]; exact v.nodup, ?_, ?_, ?_, ?_⟩
  · intro p hp
    obtain ⟨e, -, rfl⟩ := hmem p hp
    exact e.isToken
  · intro p hp
    obtain ⟨e, -, rfl⟩ := hmem p hp
    exact e.value_nonempty
  · intro p hp
    obtain ⟨e, -, rfl⟩ := hmem p hp
    exact e.value_unmarked
  · intro p hp p' hp'
    obtain ⟨e, he, rfl⟩ := hmem p hp
    obtain ⟨e', he', rfl⟩ := hmem p' hp'
    exact v.notInfix e he e' he'

theorem replacements_eq (v : TokenVault) (scope : Scope) (policy : String) :
    replacements v.vault scope policy = v.table scope policy := by
  rw [replacements, vault, table, List.map_map]
  refine List.map_congr_left fun e _ => ?_
  exact congrArg (Prod.mk e.token) (e.replacement_eq scope policy)

end TokenVault

/-- **Restoring is one simultaneous substitution**: in every iteration order of the vault each
token of the text becomes its value or its label, and nothing else changes. -/
theorem deanonymize_onePass (v : TokenVault) {vault : Vault} (hperm : v.vault.Perm vault)
    (scope : Scope) (policy : String) (text : Text) :
    deanonymize text vault scope policy = onePass (v.table scope policy) text := by
  have htable := v.wellFormed.replaceable scope policy
  have horder : (replacements v.vault scope policy).Perm (replacements vault scope policy) :=
    hperm.map _
  rw [deanonymize_eq, ← replaceEach_perm (by decide) htable horder,
    replaceEach_eq_onePass (by decide) htable, v.replacements_eq]

/-- A token of an e-mail address and one of a handle. -/
def issuedPair : TokenVault where
  entries :=
    [⟨.email, List.replicate 32 'a', "a@b.ru".toList, rfl,
      fun c hc => by rw [List.eq_of_mem_replicate hc]; decide, by decide, by decide⟩,
    ⟨.socialHandle, List.replicate 32 'b', "@ivan".toList, rfl,
      fun c hc => by rw [List.eq_of_mem_replicate hc]; decide, by decide, by decide⟩]
  nodup := by decide
  notInfix := by decide

/-- The first one is in the scope. -/
theorem deanonymize_onePass_pair :
    let text := issuedPair.entries.flatMap (fun e => "to ".toList ++ e.token)
    let scope := [("[EMAIL_aaaaaaaaaaaaaaaaaaaaaaaaaaaaaaaa]".toList, 1)]
    deanonymize text issuedPair.vault.reverse scope "restore" =
        onePass (issuedPair.table scope "restore") text ∧
      onePass (issuedPair.table scope "restore") text =
        "to a@b.ruto [SOCIAL_HANDLE]".toList :=
  ⟨deanonymize_onePass issuedPair (List.reverse_perm _).symm _ "restore" _, by decide +kernel⟩

end FirewallLLM.Dlp
