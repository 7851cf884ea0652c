import FirewallLLM.Decimal
import Mathlib.Logic.Function.Basic

/-! # A string map with expiry

Redis as far as single string commands go: a map from keys to values, of which some expire at a
point in time.  Every command is atomic.  The time of the server comes with the command, and a
key that has expired is gone.  Counters are integers in decimal; that they stay within 64 bits is
taken for granted. -/

namespace RedisMap

open Decimal

abbrev Text := List Char

/-- A value, and the time at which it expires in milliseconds. -/
structure Entry where
  value : Text
  expiry : Option ℤ

/-- The keys of a server. -/
abbrev Server := Text → Option Entry

/-- The entry is there. -/
def Entry.live (e : Entry) (now : ℤ) : Bool := e.expiry.all (now < ·)

namespace Server

/-- `GET` -/
def get (r : Server) (now : ℤ) (key : Text) : Option Text :=
  ((r key).filter (·.live now)).map Entry.value

/-- `SET` -/
def set (r : Server) (key value : Text) : Server := Function.update r key (some ⟨value, none⟩)

/-- `SET` with `EX` -/
def setEx (r : Server) (now : ℤ) (key value : Text) (seconds : ℤ) : Server :=
  Function.update r key (some ⟨value, some (now + seconds * 1000)⟩)

/-- `SET` with `KEEPTTL` -/
def setKeep (r : Server) (now : ℤ) (key value : Text) : Server :=
  Function.update r key (some ⟨value, ((r key).filter (·.live now)).bind Entry.expiry⟩)

/-- `DEL` -/
def delete (r : Server) (keys : List Text) : Server := fun key =>
  if keys.any (· = key) then none else r key

/-! ### Counters -/

/-- `INCRBY`, with the new value. -/
def incrby (r : Server) (now : ℤ) (key : Text) (amount : ℤ) : Server × ℤ :=
  match (r key).filter (·.live now) with
  | some e => (Function.update r key (some ⟨intText (readInt e.value + amount), e.expiry⟩),
      readInt e.value + amount)
  | none => (Function.update r key (some ⟨intText amount, none⟩), amount)

/-- `EXPIRE` -/
def expire (r : Server) (now : ℤ) (key : Text) (seconds : ℤ) : Server :=
  match (r key).filter (·.live now) with
  | some e => Function.update r key (some ⟨e.value, some (now + seconds * 1000)⟩)
  | none => r

/-! ### What the commands do -/

theorem get_eq_some {r : Server} {now : ℤ} {key v : Text} :
    r.get now key = some v ↔ ∃ e, r key = some e ∧ e.live now = true ∧ e.value = v := by
  simp only [get, Option.map_eq_some_iff, Option.filter_eq_some_iff, and_assoc]

theorem get_of_none {r : Server} {key : Text} (h : r key = none) (now : ℤ) :
    r.get now key = none := by
  rw [get, h]
  rfl

theorem get_of_lasting {r : Server} {key v : Text} (h : r key = some ⟨v, none⟩) (now : ℤ) :
    r.get now key = some v := by
  rw [get, h]
  rfl

@[simp] theorem set_self (r : Server) (key value : Text) :
    r.set key value key = some ⟨value, none⟩ := Function.update_self ..

theorem delete_of_mem {keys : List Text} {key : Text} (h : key ∈ keys) (r : Server) :
    r.delete keys key = none := if_pos (List.any_eq_true.mpr ⟨key, h, decide_eq_true rfl⟩)

theorem delete_of_not_mem {keys : List Text} {key : Text} (h : key ∉ keys) (r : Server) :
    r.delete keys key = r key := by
  refine if_neg fun hany => ?_
  obtain ⟨k, hk, heq⟩ := List.any_eq_true.mp hany
  exact h (of_decide_eq_true heq ▸ hk)

theorem expire_incrby (r : Server) (now : ℤ) (key : Text) (amount seconds : ℤ) :
    (r.incrby now key amount).1.expire now key seconds =
      Function.update r key (some ⟨intText ((r.get now key).elim 0 readInt + amount),
        some (now + seconds * 1000)⟩) := by
  unfold incrby get
  cases h : (r key).filter (·.live now) with
  | none => simp [expire, Entry.live, Option.filter]
  | some e =>
      have hlive := (Option.filter_eq_some_iff.mp h).2
      have hlive' : Entry.live ⟨intText (readInt e.value + amount), e.expiry⟩ now = true := hlive
      simp [expire, hlive', Option.filter]

end Server

end RedisMap
