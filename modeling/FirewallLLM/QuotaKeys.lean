import FirewallLLM.PyMetering
import FirewallLLM.PyRouterStore

/-! # The keys of the shared store

Clients, providers and models are part of the keys of the counters, as they come and unescaped.
The text in front of a name is never the beginning of the text in front of another one, and the
day behind it has eight characters, so that a key gives back its family, its name and its day
(`keyText_injective`). -/

namespace FirewallLLM

/-! ### Prefix-free texts -/

section PrefixFree

variable {α : Type} {P : List (List α)}

/-- No text of the list is the beginning of another one. -/
def PrefixFree (P : List (List α)) : Prop := ∀ p ∈ P, ∀ q ∈ P, p <+: q → p = q

/-- What is put behind prefix-free texts can be read off. -/
theorem PrefixFree.append_inj (h : PrefixFree P) {p q x y : List α} (hp : p ∈ P) (hq : q ∈ P)
    (heq : p ++ x = q ++ y) : p = q ∧ x = y := by
  have hpq : p = q := by
    have hleft : p <+: q ++ y := heq ▸ List.prefix_append p x
    rcases List.prefix_or_prefix_of_prefix hleft (List.prefix_append q y) with hpre | hpre
    · exact h p hp q hq hpre
    · exact (h q hq p hp hpre).symm
  subst hpq
  exact ⟨rfl, List.append_cancel_left heq⟩

end PrefixFree

/-! ### The keys -/

namespace SharedStore

open Dlp (Text)
open Quota (cTokensKey cReqKey pTokensKey pReqKey mTokensKey rsvKey)

/-- A day as the keys carry it. -/
structure Day where
  text : String
  length_eq : text.toList.length = 8

/-- The families of counters, one counter for each name and day. -/
inductive Daily where
  | cTokens | cReq | pTokens | pReq | mTokens | routerTokens
deriving DecidableEq

/-- What the gateways keep in the store. -/
inductive Entry where
  | daily (family : Daily) (name : String) (day : Day)
  | reservation (id : String)
  | override
  | overrideUntil
  | blocked (client : String)

/-- The key of a counter. -/
def dailyKey : Daily → String → String → Text
  | .cTokens, client, day => (cTokensKey client day).toList
  | .cReq, client, day => (cReqKey client day).toList
  | .pTokens, provider, day => (pTokensKey provider day).toList
  | .pReq, provider, day => (pReqKey provider day).toList
  | .mTokens, model, day => (mTokensKey model day).toList
  | .routerTokens, provider, day => (Py.StoreKey.tokens provider day).text

/-- The key of an entry. -/
def keyText : Entry → Text
  | .daily family name day => dailyKey family name day.text
  | .reservation id => (rsvKey id).toList
  | .override => Py.StoreKey.override.text
  | .overrideUntil => Py.StoreKey.overrideUntil.text
  | .blocked client => (Py.StoreKey.blocked client).text

/-! ### Keys and names -/

/-- The kinds of keys.  The two keys of the override are told apart behind their common text. -/
inductive Kind where
  | daily (family : Daily)
  | reservation
  | override
  | blocked
deriving DecidableEq

/-- The text in front of a name. -/
def Kind.front : Kind → Text
  | .daily .cTokens => "fwllm:c:tokens:".toList
  | .daily .cReq => "fwllm:c:req:".toList
  | .daily .pTokens => "fwllm:p:tokens:".toList
  | .daily .pReq => "fwllm:p:req:".toList
  | .daily .mTokens => "fwllm:m:tokens:".toList
  | .daily .routerTokens => "fwllm:rt:tokens:".toList
  | .reservation => "fwllm:rsv:".toList
  | .override => "fwllm:rt:override".toList
  | .blocked => "fwllm:rt:blocked:".toList

def kinds : List Kind :=
  [.daily .cTokens, .daily .cReq, .daily .pTokens, .daily .pReq, .daily .mTokens,
    .daily .routerTokens, .reservation, .override, .blocked]

theorem mem_kinds (k : Kind) : k ∈ kinds := by
  cases k with
  | daily family => cases family <;> decide
  | reservation => decide
  | override => decide
  | blocked => decide

theorem prefixFree_front : PrefixFree (kinds.map Kind.front) := by
  unfold PrefixFree
  decide

theorem front_injective : Function.Injective Kind.front := by
  intro k k' h
  have hall : ∀ k ∈ kinds, ∀ k' ∈ kinds, k.front = k'.front → k = k' := by decide
  exact hall k (mem_kinds k) k' (mem_kinds k') h

/-- The kind of an entry. -/
def Entry.kind : Entry → Kind
  | .daily family _ _ => .daily family
  | .reservation _ => .reservation
  | .override | .overrideUntil => .override
  | .blocked _ => .blocked

/-- What stands behind the text of the kind. -/
def Entry.rest : Entry → Text
  | .daily _ name day => name.toList ++ ':' :: day.text.toList
  | .reservation id => id.toList
  | .override => []
  | .overrideUntil => "_until".toList
  | .blocked client => client.toList

theorem toList_bucketKey (family name day : String) :
    (Quota.bucketKey family name day).toList =
      family.toList ++ (name.toList ++ ':' :: day.toList) := by
  rw [Quota.bucketKey, String.toList_append, String.toList_append, String.toList_append,
    List.append_assoc, List.append_assoc]
  rfl

theorem dailyKey_eq (family : Daily) (name day : String) :
    dailyKey family name day =
      (Kind.daily family).front ++ (name.toList ++ ':' :: day.toList) := by
  cases family with
  | routerTokens => rfl
  | cTokens => exact toList_bucketKey _ name day
  | cReq => exact toList_bucketKey _ name day
  | pTokens => exact toList_bucketKey _ name day
  | pReq => exact toList_bucketKey _ name day
  | mTokens => exact toList_bucketKey _ name day

theorem keyText_eq (e : Entry) : keyText e = e.kind.front ++ e.rest := by
  cases e with
  | daily family name day => exact dailyKey_eq family name day.text
  | reservation id => exact String.toList_append
  | override => rfl
  | overrideUntil => rfl
  | blocked client => rfl

theorem Day.ext {d d' : Day} (h : d.text.toList = d'.text.toList) : d = d' := by
  cases d
  cases d'
  obtain rfl := String.toList_inj.mp h
  rfl

/-- An entry is known by its kind and what stands behind. -/
theorem eq_of_rest {e e' : Entry} (hkind : e.kind = e'.kind) (hrest : e.rest = e'.rest) :
    e = e' := by
  cases e <;> cases e' <;> simp only [Entry.kind, reduceCtorEq, Kind.daily.injEq] at hkind
  case daily.daily family name day family' name' day' =>
    obtain ⟨hname, hday⟩ := List.append_inj' hrest (by
      rw [List.length_cons, List.length_cons, day.length_eq, day'.length_eq])
    rw [hkind, String.toList_inj.mp hname, Day.ext (List.cons.inj hday).2]
  case reservation.reservation id id' => rw [String.toList_inj.mp hrest]
  case override.override => rfl
  case override.overrideUntil => exact absurd hrest (by decide)
  case overrideUntil.override => exact absurd hrest (by decide)
  case overrideUntil.overrideUntil => rfl
  case blocked.blocked client client' => rw [String.toList_inj.mp hrest]

theorem keyText_injective : Function.Injective keyText := by
  intro e e' h
  rw [keyText_eq, keyText_eq] at h
  obtain ⟨hfront, hrest⟩ := prefixFree_front.append_inj (List.mem_map_of_mem (mem_kinds e.kind))
    (List.mem_map_of_mem (mem_kinds e'.kind)) h
  exact eq_of_rest (front_injective hfront) hrest

/-! ### What a request touches -/

/-- The counters of a request. -/
def counters (client provider model : String) (day : Day) : List Entry :=
  [.daily .cTokens client day, .daily .cReq client day, .daily .pTokens provider day,
    .daily .pReq provider day, .daily .mTokens model day]

theorem mem_of_keys {keys : List String} {es : List Entry}
    (h : keys.map String.toList = es.map keyText) {e : Entry} :
    keyText e ∈ keys.map String.toList ↔ e ∈ es := by
  rw [h]
  exact List.mem_map_of_injective keyText_injective

theorem admitOp_keys (m : Quota.Metering Int64) (rsv : Quota.Reservation Int64) (day : Day) :
    [(m.admitOp rsv day.text).cTokensKey, (m.admitOp rsv day.text).cReqKey,
        (m.admitOp rsv day.text).pTokensKey, (m.admitOp rsv day.text).pReqKey,
        (m.admitOp rsv day.text).mTokensKey, (m.admitOp rsv day.text).reservationKey].map
        String.toList =
      (counters rsv.client rsv.provider rsv.model day ++ [Entry.reservation rsv.id]).map
        keyText := rfl

theorem tokenKeys_entries (rsv : Quota.Reservation Int64) (day : Day) :
    (Quota.Metering.tokenKeys rsv day.text).map String.toList =
      [Entry.daily .cTokens rsv.client day, .daily .pTokens rsv.provider day,
        .daily .mTokens rsv.model day].map keyText := rfl

theorem reservationKeys_entries (rsv : Py.Reservation) (day : Day) :
    (Py.Metering.reservationKeys rsv day.text).map String.toList =
      (counters rsv.client rsv.provider rsv.model day).map keyText := rfl

/-- **Different entries have different keys**: an admission and a settlement touch the counters of
their own names and no others. -/
theorem keys_never_collide :
    (∀ e e' : Entry, keyText e = keyText e' ↔ e = e') ∧
    (∀ (m : Quota.Metering Int64) (rsv : Quota.Reservation Int64) (day : Day) (e : Entry),
      keyText e ∈ [(m.admitOp rsv day.text).cTokensKey, (m.admitOp rsv day.text).cReqKey,
        (m.admitOp rsv day.text).pTokensKey, (m.admitOp rsv day.text).pReqKey,
        (m.admitOp rsv day.text).mTokensKey, (m.admitOp rsv day.text).reservationKey].map
        String.toList ↔
      e ∈ counters rsv.client rsv.provider rsv.model day ++ [Entry.reservation rsv.id]) ∧
    (∀ (rsv : Quota.Reservation Int64) (day : Day) (e : Entry),
      keyText e ∈ (Quota.Metering.tokenKeys rsv day.text).map String.toList ↔
      e ∈ [Entry.daily .cTokens rsv.client day, .daily .pTokens rsv.provider day,
        .daily .mTokens rsv.model day]) ∧
    ∀ (rsv : Py.Reservation) (day : Day) (e : Entry),
      keyText e ∈ (Py.Metering.reservationKeys rsv day.text).map String.toList ↔
      e ∈ counters rsv.client rsv.provider rsv.model day :=
  ⟨fun _ _ => keyText_injective.eq_iff, fun m rsv day _ => mem_of_keys (admitOp_keys m rsv day),
    fun rsv day _ => mem_of_keys (tokenKeys_entries rsv day),
    fun rsv day _ => mem_of_keys (reservationKeys_entries rsv day)⟩

end SharedStore

end FirewallLLM
