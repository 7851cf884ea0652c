import FirewallLLM.PyRouter
import FirewallLLM.RedisMap

/-! # The router store in Redis

`RedisRouterStore` of `store.py`: the calls of the store as commands to a server.  The override
is in two keys, and the entry of a client whose block has expired is deleted when it is read.
How a float is written into Redis and read back is a parameter (`FloatCodec`).

`StoreKey.text_inj`: different entries have different keys. -/

namespace FirewallLLM.Py

open Dlp (Text)
open RedisMap (Server)
open Routing (Builtins)
open Routing.Builtins (le)

/-- The text of a float, which is not empty, and back. -/
structure FloatCodec (F : Type) where
  repr : F → Text
  read : Text → F
  read_repr : ∀ x, read (repr x) = x
  repr_ne_nil : ∀ x, repr x ≠ []

/-! ### Keys -/

/-- What the store keeps. -/
inductive StoreKey where
  | override
  | overrideUntil
  | blocked (client : String)
  | tokens (provider day : String)

/-- The key, behind `PREFIX`. -/
def StoreKey.text : StoreKey → Text
  | override => "fwllm:rt:override".toList
  | overrideUntil => "fwllm:rt:override_until".toList
  | blocked client => "fwllm:rt:blocked:".toList ++ client.toList
  | tokens provider day => "fwllm:rt:tokens:".toList ++ (provider.toList ++ ':' :: day.toList)

/-- The day of a key has no colon. -/
def StoreKey.Dated : StoreKey → Prop
  | tokens _ day => ':' ∉ day.toList
  | _ => True

/-- The letter of a key behind the prefix. -/
def StoreKey.letter : StoreKey → Char
  | override | overrideUntil => 'o'
  | blocked _ => 'b'
  | tokens _ _ => 't'

theorem StoreKey.text_letter (k : StoreKey) : k.text[9]? = some k.letter := by
  cases k with
  | override => rfl
  | overrideUntil => rfl
  | blocked client => exact (List.getElem?_append_left (by simp)).trans rfl
  | tokens provider day => exact (List.getElem?_append_left (by simp)).trans rfl

theorem StoreKey.override_ne : override.text.length ≠ overrideUntil.text.length := by
  have hoverride : override.text.length = 17 := rfl
  have huntil : overrideUntil.text.length = 23 := rfl
  rw [hoverride, huntil]
  decide

/-- **Different entries have different keys.** -/
theorem StoreKey.text_inj {k k' : StoreKey} (hk : k.Dated) (hk' : k'.Dated)
    (h : k.text = k'.text) : k = k' := by
  have hletter : some k.letter = some k'.letter := by
    rw [← text_letter, ← text_letter, h]
  cases k <;> cases k' <;> simp [letter] at hletter
  · rfl
  · exact (override_ne (congrArg List.length h)).elim
  · exact (override_ne (congrArg List.length h.symm)).elim
  · rfl
  · exact congrArg blocked (String.toList_inj.mp (List.append_cancel_left h))
  · rename_i p d p' d'
    have hrev := congrArg List.reverse (List.append_cancel_left h)
    simp only [List.reverse_append, List.reverse_cons, List.append_assoc, List.cons_append,
      List.nil_append] at hrev
    obtain ⟨hday, hprovider⟩ := Substitution.append_cons_inj
      (by rw [List.mem_reverse]; exact hk) (by rw [List.mem_reverse]; exact hk') hrev
    rw [String.toList_inj.mp (List.reverse_injective hday),
      String.toList_inj.mp (List.reverse_injective hprovider)]

theorem StoreKey.blocked_ne {c c' : String} (h : c' ≠ c) :
    (blocked c').text ≠ (blocked c).text := fun htext =>
  h (blocked.inj (@text_inj (blocked c') (blocked c) trivial trivial htext))

theorem StoreKey.blocked_ne_override (c : String) : (blocked c).text ≠ override.text :=
  fun htext => StoreKey.noConfusion (@text_inj (blocked c) override trivial trivial htext)

theorem StoreKey.blocked_ne_until (c : String) : (blocked c).text ≠ overrideUntil.text :=
  fun htext => StoreKey.noConfusion (@text_inj (blocked c) overrideUntil trivial trivial htext)

theorem StoreKey.override_ne_until : override.text ≠ overrideUntil.text := fun htext =>
  override_ne (congrArg List.length htext)

/-! ### The calls -/

section Calls

variable {F : Type} [Builtins F] (codec : FloatCodec F)

/-- What `get_override` makes of its two replies; an empty one counts as none. -/
def overrideOf (provider untilTs : Option Text) : Option (String × F) :=
  match provider, untilTs with
  | some provider, some untilTs =>
      if provider ≠ [] ∧ untilTs ≠ [] then some (String.ofList provider, codec.read untilTs)
      else none
  | _, _ => none

namespace RedisRouterStore

/-- `get_override` -/
def getOverride (r : Server) (time : ℤ) : Option (String × F) :=
  overrideOf codec (r.get time StoreKey.override.text) (r.get time StoreKey.overrideUntil.text)

/-- The first command of `set_override`. -/
def setProvider (r : Server) (provider : String) : Server :=
  r.set StoreKey.override.text provider.toList

/-- Its second one. -/
def setUntil (r : Server) (untilTs : F) : Server :=
  r.set StoreKey.overrideUntil.text (codec.repr untilTs)

/-- `set_override` -/
def setOverride (r : Server) (provider : String) (untilTs : F) : Server :=
  setUntil codec (setProvider r provider) untilTs

/-- `clear_override` -/
def clearOverride (r : Server) : Server :=
  r.delete [StoreKey.override.text, StoreKey.overrideUntil.text]

/-- `block_source` -/
def blockSource (r : Server) (client : String) (untilTs : F) : Server :=
  r.set (StoreKey.blocked client).text (codec.repr untilTs)

/-- What `is_blocked` makes of the reply: `none` where it goes on to delete the entry. -/
def verdict (raw : Option Text) (now : F) : Option Bool :=
  match raw with
  | none => some false
  | some raw => if le (codec.read raw) now then none else some true

/-- The second command of `is_blocked`. -/
def forget (r : Server) (client : String) : Server := r.delete [(StoreKey.blocked client).text]

/-- `is_blocked` -/
def isBlocked (r : Server) (time : ℤ) (client : String) (now : F) : Bool × Server :=
  match verdict codec (r.get time (StoreKey.blocked client).text) now with
  | some blocked => (blocked, r)
  | none => (false, forget r client)

/-- `incr_tokens`; a bucket is kept for 48 hours. -/
def incrTokens (r : Server) (time : ℤ) (provider day : String) (amount : ℤ) : Server :=
  (r.incrby time (StoreKey.tokens provider day).text amount).1.expire time
    (StoreKey.tokens provider day).text (60 * 60 * 48)

/-- `get_tokens` -/
def getTokens (r : Server) (time : ℤ) (provider day : String) : ℤ :=
  match r.get time (StoreKey.tokens provider day).text with
  | some raw => if raw ≠ [] then Decimal.readInt raw else 0
  | none => 0

end RedisRouterStore

end Calls

/-! ### What the calls leave under a key -/

namespace RedisRouterStore

section Keys

variable {F : Type} {codec : FloatCodec F} (r : Server) {client provider : String} {untilTs : F}
  {key : Text}

@[simp] theorem blockSource_self : blockSource codec r client untilTs
    (StoreKey.blocked client).text = some ⟨codec.repr untilTs, none⟩ := Function.update_self ..

theorem blockSource_of_ne (codec : FloatCodec F) (untilTs : F)
    (h : key ≠ (StoreKey.blocked client).text) :
    blockSource codec r client untilTs key = r key := Function.update_of_ne h ..

@[simp] theorem forget_self : forget r client (StoreKey.blocked client).text = none :=
  RedisMap.Server.delete_of_mem List.mem_cons_self r

theorem forget_of_ne (h : key ≠ (StoreKey.blocked client).text) : forget r client key = r key :=
  RedisMap.Server.delete_of_not_mem (by rwa [List.mem_singleton]) r

@[simp] theorem setProvider_self : setProvider r provider StoreKey.override.text =
    some ⟨provider.toList, none⟩ := by
  rw [setProvider, RedisMap.Server.set_self]

theorem setProvider_of_ne (provider : String) (h : key ≠ StoreKey.override.text) :
    setProvider r provider key = r key := Function.update_of_ne h ..

@[simp] theorem setUntil_self : setUntil codec r untilTs StoreKey.overrideUntil.text =
    some ⟨codec.repr untilTs, none⟩ := by
  rw [setUntil, RedisMap.Server.set_self]

theorem setUntil_of_ne (codec : FloatCodec F) (untilTs : F) (h : key ≠ StoreKey.overrideUntil.text) :
    setUntil codec r untilTs key = r key := Function.update_of_ne h ..

@[simp] theorem clearOverride_override : clearOverride r StoreKey.override.text = none :=
  RedisMap.Server.delete_of_mem List.mem_cons_self r

@[simp] theorem clearOverride_until : clearOverride r StoreKey.overrideUntil.text = none :=
  RedisMap.Server.delete_of_mem (List.mem_cons_of_mem _ List.mem_cons_self) r

theorem clearOverride_of_ne (h : key ≠ StoreKey.override.text)
    (h' : key ≠ StoreKey.overrideUntil.text) : clearOverride r key = r key :=
  RedisMap.Server.delete_of_not_mem (by simp [h, h']) r

end Keys

end RedisRouterStore

end FirewallLLM.Py
