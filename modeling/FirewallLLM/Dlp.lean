import FirewallLLM.Substitution
import Mathlib

/-! # Reversible masking

The DLP inspector of `inspectors/dlp.rs`: `sanitize` replaces what the detectors find by
tokens and keeps the values in a vault, `deanonymize` replaces the tokens of a response, and
`StreamRestore` does so chunk by chunk.

Texts are lists of characters and spans count characters; only `StreamRestore::feed` compares
byte lengths.  The regular expressions are a parameter (`Patterns`), of which `sanitize` uses
that they report spans of the text.  The vault and the scope are lists of entries in the order
of their insertion; the order in which the hash map of the vault iterates is a parameter
(`VaultOrder`).  The random numbers are a list of draws, and `sanitize` is undefined when it
needs more draws than there are. -/

namespace FirewallLLM.Dlp

open Substitution (replaceAll)

abbrev Text := List Char

/-- The detectors in profile order. -/
inductive Detector where
  | email | phone | passport | snils | inn | card | person
  | onlineAccount | profileUrl | socialHandle | username
deriving DecidableEq, Repr

/-- The type name that a detector puts into its tokens. -/
def Detector.typ : Detector → Text
  | email => "EMAIL".toList
  | phone => "PHONE".toList
  | passport => "PASSPORT".toList
  | snils => "SNILS".toList
  | inn => "INN".toList
  | card => "CARD".toList
  | person => "PERSON".toList
  | onlineAccount => "ONLINE_ACCOUNT".toList
  | profileUrl => "PROFILE_URL".toList
  | socialHandle => "SOCIAL_HANDLE".toList
  | username => "USERNAME".toList

def detectors : List Detector :=
  [.email, .phone, .passport, .snils, .inn, .card, .person, .onlineAccount, .profileUrl,
    .socialHandle, .username]

/-- The compiled patterns: the spans that `find_iter` reports lie in the text. -/
structure Patterns where
  findIter : Detector → Text → List (ℕ × ℕ)
  bounds : ∀ d text m, m ∈ findIter d text → m.1 ≤ m.2 ∧ m.2 ≤ text.length

/-! ### Hits -/

/-- A match of a detector, with its place in the profile order. -/
structure Hit where
  start : ℕ
  stop : ℕ
  order : ℕ
  typ : Text
deriving DecidableEq, Repr

/-- All matches, in profile order. -/
def hits (p : Patterns) (text : Text) : List Hit :=
  detectors.zipIdx.flatMap (fun (d, order) =>
    (p.findIter d text).map (fun m => ⟨m.1, m.2, order, d.typ⟩))

/-- The order of the keys `(h.start, h.order)`. -/
def Hit.le (g h : Hit) : Prop := g.start < h.start ∨ g.start = h.start ∧ g.order ≤ h.order

instance : DecidableRel Hit.le := fun g h =>
  inferInstanceAs (Decidable (g.start < h.start ∨ g.start = h.start ∧ g.order ≤ h.order))

/-- Greedy non-overlapping accept. -/
def accept : ℕ → List Hit → List Hit
  | _, [] => []
  | lastEnd, h :: hs =>
      if h.start ≥ lastEnd then h :: accept h.stop hs else accept lastEnd hs

/-- The matches that are replaced: `sort_by_key` is stable, as insertion sort is. -/
def accepted (p : Patterns) (text : Text) : List Hit :=
  accept 0 ((hits p text).insertionSort Hit.le)

/-! ### Tokens -/

/-- The digits of `{:x}`. -/
def hexDigits : Text := "0123456789abcdef".toList

/-- The last `width` hexadecimal digits of `n`. -/
def hexFixed : ℕ → ℕ → Text
  | 0, _ => []
  | width + 1, n => hexFixed width (n / 16) ++ [hexDigits.getD (n % 16) '0']

/-- `{:016x}`. -/
def hex16 (n : UInt64) : Text := hexFixed 16 n.toNat

/-- `[TYPE_<hex><hex>]`. -/
def formatToken (typ : Text) (draw : UInt64 × UInt64) : Text :=
  '[' :: (typ ++ '_' :: (hex16 draw.1 ++ hex16 draw.2)) ++ [']']

abbrev Vault := List (Text × Text)
abbrev Scope := List (Text × ℕ)

/-- The order in which the hash map with these entries iterates. -/
structure VaultOrder where
  iter : Vault → Vault
  perm : ∀ vault, (iter vault).Perm vault

/-- Draw until the token is not in the vault. -/
def newToken (typ : Text) (vault : Vault) :
    List (UInt64 × UInt64) → Option (Text × List (UInt64 × UInt64))
  | [] => none
  | draw :: draws =>
      if formatToken typ draw ∈ vault.map Prod.fst then newToken typ vault draws
      else some (formatToken typ draw, draws)

/-- `*scope.entry(token).or_insert(0) += 1`. -/
def Scope.count (scope : Scope) (token : Text) : Scope :=
  if token ∈ scope.map Prod.fst then
    scope.map (fun e => if e.1 = token then (e.1, e.2 + 1) else e)
  else scope ++ [(token, 1)]

/-- What `sanitize` works on: the text, the vault, the scope and the random source. -/
structure Masking where
  out : Text
  vault : Vault
  scope : Scope
  draws : List (UInt64 × UInt64)
deriving DecidableEq, Repr

/-- The token of a value: the one it has in the vault or a new one. -/
def tokenOf (ord : VaultOrder) (typ val : Text) (st : Masking) : Option (Text × Masking) :=
  match (ord.iter st.vault).find? (fun e => e.2 = val) with
  | some e => some (e.1, st)
  | none => (newToken typ st.vault st.draws).map (fun (t, draws) =>
      (t, { st with vault := st.vault ++ [(t, val)], draws }))

/-- Replace one accepted hit. -/
def maskHit (ord : VaultOrder) (st : Masking) (h : Hit) : Option Masking :=
  let val := (st.out.take h.stop).drop h.start
  (tokenOf ord h.typ val st).map (fun (token, st) =>
    { st with
      out := st.out.take h.start ++ token ++ st.out.drop h.stop
      scope := st.scope.count token })

/-- `sanitize`, back to front over the accepted hits. -/
def sanitize (p : Patterns) (ord : VaultOrder) (text : Text) (vault : Vault) (scope : Scope)
    (draws : List (UInt64 × UInt64)) : Option Masking :=
  (accepted p text).reverse.foldlM (maskHit ord) ⟨text, vault, scope, draws⟩

/-- `sanitize` of several texts with one vault and one scope: the masked texts and the state
after the last one. -/
def sanitizeAll (p : Patterns) (ord : VaultOrder) : List Text → Vault → Scope →
    List (UInt64 × UInt64) → Option (List Text × Masking)
  | [], vault, scope, draws => some ([], ⟨[], vault, scope, draws⟩)
  | text :: texts, vault, scope, draws =>
      (sanitize p ord text vault scope draws).bind (fun st =>
        (sanitizeAll p ord texts st.vault st.scope st.draws).map (fun (outs, last) =>
          (st.out :: outs, last)))

/-! ### Restoring -/

/-- The text up to the last `c` and the text from it on. -/
def rfind (c : Char) : Text → Option (Text × Text)
  | [] => none
  | d :: ds =>
      match rfind c ds with
      | some (pre, post) => some (d :: pre, post)
      | none => if d = c then some ([], d :: ds) else none

/-- `rsplit_once`. -/
def rsplitOnce (c : Char) (s : Text) : Option (Text × Text) :=
  (rfind c s).map (fun (pre, post) => (pre, post.tail))

/-- `strip_prefix` of one character. -/
def stripPrefix (c : Char) : Text → Option Text
  | [] => none
  | d :: ds => if d = c then some ds else none

/-- `strip_suffix` of one character. -/
def stripSuffix (c : Char) (s : Text) : Option Text :=
  if s.getLast? = some c then some s.dropLast else none

/-- The generic mask label of a token. -/
def maskLabel (token : Text) : Text :=
  (((stripPrefix '[' token).bind (stripSuffix ']')).bind (rsplitOnce '_')).elim
    "[REDACTED]".toList (fun (typ, _) => '[' :: (typ ++ [']']))

/-- What `deanonymize` puts in the place of a token. -/
def replacement (scope : Scope) (policy : String) (token val : Text) : Text :=
  if policy = "restore" ∧ token ∈ scope.map Prod.fst then val else maskLabel token

/-- `deanonymize`: one replacement after the other, in the iteration order of the vault. -/
def deanonymize (text : Text) (vault : Vault) (scope : Scope) (policy : String) : Text :=
  vault.foldl (fun out (token, val) => replaceAll token (replacement scope policy token val) out)
    text

/-! ### Restoring a stream -/

/-- The length of a text in UTF-8. -/
def byteLen (s : Text) : ℕ := (s.map (fun c => c.utf8Size)).sum

/-- `StreamRestore`. -/
structure StreamRestore where
  vault : Vault
  scope : Scope
  policy : String
  carry : Text
deriving DecidableEq, Repr

namespace StreamRestore

/-- `StreamRestore::new`. -/
def new (vault : Vault) (scope : Scope) (policy : String) : StreamRestore :=
  ⟨vault, scope, policy, []⟩

/-- `StreamRestore::restore`. -/
def restore (s : StreamRestore) (text : Text) : Text :=
  deanonymize text s.vault s.scope s.policy

/-- `c.is_ascii_alphanumeric() || c == '_'`. -/
def isTokenChar (c : Char) : Bool := c.isAlphanum || c == '_'

/-- The trailing partial token of a buffer: from the last `[`, followed only by token
characters. -/
def cut (buf : Text) : Option (Text × Text) :=
  (rfind '[' buf).filter (fun (_, post) => !post.contains ']' && post.tail.all isTokenChar)

/-- The part of a buffer that is emitted and the part that is held back. -/
def splitBuf (buf : Text) : Text × Text :=
  match cut buf with
  | some (head, tail) => if byteLen head + 1 + 64 ≥ byteLen buf then (head, tail) else (buf, [])
  | none => (buf, [])

/-- `StreamRestore::feed`. -/
def feed (s : StreamRestore) (text : Text) : Text × StreamRestore :=
  let (head, carry) := splitBuf (s.carry ++ text)
  (s.restore head, { s with carry })

/-- `StreamRestore::flush`. -/
def flush (s : StreamRestore) : Text × StreamRestore :=
  if s.carry = [] then ([], s) else (s.restore s.carry, { s with carry := [] })

/-- The session after some chunks. -/
def after (s : StreamRestore) (chunks : List Text) : StreamRestore :=
  chunks.foldl (fun s chunk => (s.feed chunk).2) s

/-- The outputs of `feed` on some chunks and of the final `flush`, one after the other. -/
def stream (s : StreamRestore) : List Text → Text
  | [] => s.flush.1
  | chunk :: chunks => (s.feed chunk).1 ++ (s.feed chunk).2.stream chunks

end StreamRestore

end FirewallLLM.Dlp
