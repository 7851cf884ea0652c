import FirewallLLM.AuditSearch
import FirewallLLM.TextLabels

/-! # What the audit log stores

`AuditLog::redact` replaces what three expressions match, one after the other, and `write` stores
the message text and the response text redacted and bounded.  The expressions are those of three
of the eleven detectors with which `sanitize` masks a request.  What a digit, a space, a letter of
a word and a letter regardless of case are to an expression are parameters.

`stored_clean_iff`: a log is clean exactly when the other eight detectors find nothing in the parts
of the texts around what is replaced, and the three are those that find nothing in any row. -/

namespace FirewallLLM.Redaction

open Dlp (Text Detector)

/-! ### The expressions of the detectors -/

/-- An item of a class: a character, a range, `\d`, `\s`, or a letter regardless of case. -/
inductive Item where
  | char (c : Char)
  | range (first last : Char)
  | digit
  | space
  | fold (l : Char)
deriving DecidableEq

abbrev Class := List Item

section Expressions

open TextPattern (opt all between times)

/-- A class of some characters. -/
def chars (s : String) : Class := s.toList.map .char

def lit (s : String) : TextPattern Class := all (s.toList.map (fun c => .letter [.char c]))

/-- `(?i:s)` -/
def foldLit (s : String) : TextPattern Class := all (s.toList.map (fun c => .letter [.fold c]))

/-- One of the words. -/
def oneOf (first : String) (others : List String) : TextPattern Class :=
  others.foldl (fun r s => .alt r (lit s)) (lit first)

/-- `[A-Za-z]` -/
def alpha : Class := [.range 'A' 'Z', .range 'a' 'z']

/-- `[A-Za-z0-9]` -/
def alnum : Class := alpha ++ [.range '0' '9']

/-- `[A-Za-zА-Яа-яЁё]` -/
def letter : Class := alpha ++ [.range 'А' 'Я', .range 'а' 'я', .char 'Ё', .char 'ё']

/-- `\d{n}` -/
def digits (n : ℕ) : TextPattern Class := times (.letter [.digit]) n

/-- `\s+` -/
def spaces : TextPattern Class := .letters [.space]

/-- `\s*` -/
def optSpaces : TextPattern Class := opt spaces

/-- `[\s\-]?` -/
def optDash : TextPattern Class := opt (.letter ([.space] ++ chars "-"))

/-- `[- ]?` -/
def optBlank : TextPattern Class := opt (.letter (chars "- "))

/-- `r{2,}` of a class. -/
def twoOrMore (k : Class) : TextPattern Class := .seq (.letter k) (.letters k)

/-- `[A-Za-z0-9][A-Za-z0-9_.-]{2,31}` -/
def handle : TextPattern Class :=
  .seq (.letter alnum) (between (.letter (alnum ++ chars "_.-")) 2 31)

def email : TextPattern Class :=
  all [.letters (alnum ++ chars "._%+-"), lit "@", .letters (alnum ++ chars ".-"), lit ".",
    twoOrMore alpha]

def phone : TextPattern Class :=
  all [.alt (lit "+7") (lit "8"), opt (.letter ([.space] ++ chars "(-")), digits 3,
    opt (.letter ([.space] ++ chars ")-")), digits 3, optBlank, digits 2, optBlank, digits 2]

def card : TextPattern Class := between (.seq (.letter [.digit]) (opt (.letter (chars " -")))) 13 19

def passport : TextPattern Class :=
  .alt
    (all [.boundary, foldLit "паспорт", optSpaces, opt (.seq (foldLit "серия") optSpaces), digits 2,
      optDash, digits 2, optSpaces, opt (.alt (.alt (foldLit "№") (foldLit "номер")) (foldLit "n")),
      optSpaces, digits 6, .boundary])
    (all [.boundary, digits 2, optDash, digits 2, .letters ([.space] ++ chars "-"), digits 6,
      .boundary])

def snils : TextPattern Class :=
  all [.boundary, digits 3, optDash, digits 3, optDash, digits 3, optDash, digits 2, .boundary]

def inn : TextPattern Class := all [.boundary, .alt (digits 10) (digits 12), .boundary]

/-- `[А-ЯЁ]` -/
def capital : Class := [.range 'А' 'Я', .char 'Ё']

/-- `[А-ЯЁ][а-яё]+` -/
def name : TextPattern Class := .seq (.letter capital) (.letters [.range 'а' 'я', .char 'ё'])

def person : TextPattern Class :=
  .seq .boundary
    (.alt (all [name, spaces, name, opt (.seq spaces name)])
      (all [name, spaces, .letter capital, lit ".", optSpaces, .letter capital, lit "."]))

/-- An account with its kind and its place. -/
def accountOn (kinds on : TextPattern Class) (k : Class) : TextPattern Class :=
  all [.boundary, kinds, spaces, opt (lit "@"), handle, spaces, on, spaces,
    .letter (k ++ [.range '0' '9']),
    between (.letter (k ++ [.range '0' '9'] ++ chars "_.-")) 1 63,
    opt (.seq (lit ".") (twoOrMore k)), .boundary]

def onlineAccount : TextPattern Class :=
  .alt
    (accountOn
      (.alt (.alt (.alt (.alt (.seq (lit "ник") (opt (lit "нейм"))) (lit "логин"))
        (lit "аккаунт")) (lit "профиль")) (lit "пользователь"))
      (oneOf "на" ["в"]) letter)
    (accountOn
      (.alt (oneOf "nickname" ["nick", "login", "account", "profile"])
        (.seq (lit "user") (opt (lit "name"))))
      (oneOf "on" ["at"]) alpha)

def profileUrl : TextPattern Class :=
  all [.boundary, opt (all [lit "http", opt (lit "s"), lit "://"]),
    oneOf "t.me" ["telegram.me", "vk.com", "vkontakte.ru", "github.com", "gitlab.com", "habr.com",
      "career.habr.com", "linkedin.com/in", "facebook.com", "instagram.com", "x.com",
      "twitter.com"],
    lit "/", between (.letter (alnum ++ chars "_.@#-")) 3 64, .boundary]

def socialHandle : TextPattern Class :=
  all [lit "@", .letter (alnum ++ chars "_"), between (.letter (alnum ++ chars "_.-")) 2 31,
    .boundary]

def username : TextPattern Class :=
  all [.boundary,
    .alt (.alt (oneOf "username" ["user", "login", "nick", "nickname", "логин"])
      (.seq (lit "ник") (opt (lit "нейм")))) (lit "пользователь"),
    optSpaces, .letter (chars ":="), optSpaces, opt (lit "@"), handle, .boundary]

/-- The expression of a detector. -/
def pattern : Detector → TextPattern Class
  | .email => Redaction.email
  | .phone => Redaction.phone
  | .passport => Redaction.passport
  | .snils => Redaction.snils
  | .inn => Redaction.inn
  | .card => Redaction.card
  | .person => Redaction.person
  | .onlineAccount => Redaction.onlineAccount
  | .profileUrl => Redaction.profileUrl
  | .socialHandle => Redaction.socialHandle
  | .username => Redaction.username

end Expressions

/-- The character tables of the expressions. -/
structure Tables where
  digit : Char → Bool
  space : Char → Bool
  word : Char → Bool
  fold : Char → Char → Bool
  digit_ascii : ∀ c, c.toNat < 128 → digit c = c.isDigit
  space_ascii : ∀ c, c.toNat < 128 → space c = (c = ' ' || (9 ≤ c.toNat && c.toNat ≤ 13))
  word_ascii : ∀ c, c.toNat < 128 → word c = (c.isAlphanum || c = '_')
  ellipsis : digit '…' = false ∧ space '…' = false ∧ word '…' = false
  -- marks have no case
  fold_mark : ∀ l, ∀ x ∈ ['[', ']', '…'], fold l x = decide (l = x)

namespace Tables

variable (t : Tables)

def item : Item → Char → Bool
  | .char a, c => c = a
  | .range first last, c => first ≤ c && c ≤ last
  | .digit, c => t.digit c
  | .space, c => t.space c
  | .fold l, c => t.fold l c

def accepts (k : Class) (c : Char) : Bool := k.any (fun i => t.item i c)

/-- `is_match` -/
def found (d : Detector) (text : Text) : Bool := (pattern d).search t.accepts t.word false text

/-- `replace_all` -/
def replace (d : Detector) (rep : String) (text : Text) : Text :=
  (pattern d).replaceAll t.accepts t.word rep.toList text

end Tables

/-! ### The log -/

/-- `MAX_AUDIT_TEXT_CHARS` -/
def maxAuditTextChars : ℕ := 8000

/-- `truncate_audit_text` -/
def truncateAuditText (text : Text) : Text :=
  if text.length ≤ maxAuditTextChars then text
  else text.take maxAuditTextChars ++ "…[truncated]".toList

/-- `AuditLog`: its settings, and its table. -/
structure AuditLog where
  enabled : Bool
  dlpRedact : Bool
  table : List AuditSearch.Row

/-- The arguments of `write`, the time, and whether SQLite carries the statement out. -/
structure Write where
  ts : String
  client : String
  provider : String
  model : String
  code : String
  promptTokens : Int64
  completionTokens : Int64
  messagesJson : Text
  responseText : Text
  usageSource : String
  requestId : String
  stores : Bool

section Log

variable (t : Tables)

/-- `AuditLog::redact` -/
def AuditLog.redact (log : AuditLog) (text : Text) : Text :=
  if log.dlpRedact then
    let out := t.replace .email "[EMAIL]" text
    let out := t.replace .card "[CARD]" out
    t.replace .phone "[PHONE]" out
  else text

/-- The text that `write` stores. -/
def AuditLog.stored (log : AuditLog) (text : Text) : String :=
  String.ofList (truncateAuditText (log.redact t text))

/-- `AuditLog::write` -/
def AuditLog.write (log : AuditLog) (w : Write) : AuditLog :=
  if log.enabled && w.stores then
    { log with
      table := log.table ++ [{
        ts := .text w.ts
        client := .text w.client
        provider := .text w.provider
        model := .text w.model
        code := .text w.code
        promptTokens := .integer w.promptTokens
        completionTokens := .integer w.completionTokens
        messages := .text (log.stored t w.messagesJson)
        responseText := .text (log.stored t w.responseText)
        usageSource := .text w.usageSource
        requestId := .text w.requestId }] }
  else log

/-- The log of a gateway with redaction, after the writes. -/
def logOf (enabled : Bool) (ws : List Write) : AuditLog :=
  ws.foldl (AuditLog.write t) ⟨enabled, true, []⟩

end Log

/-! ### What is not found -/

/-- The detectors of which `redact` has the expressions. -/
def redacted : List Detector := [.email, .phone, .card]

/-- The item does not accept the mark. -/
def Item.avoids (x : Char) : Item → Bool
  | .char a => a ≠ x
  | .range first last => !(first ≤ x && x ≤ last)
  | .digit | .space => true
  | .fold l => l ≠ x

/-- Every match of a detector has a character of one of these classes. -/
def telling (k : Class) : Bool :=
  k ∈ [[.char '@'], [.digit], [.space], [.char '/'], chars ":=", capital]

/-- A letter or a bracket of ASCII is in none of them. -/
def plain (c : Char) : Bool := c.toNat < 128 && (c.isAlpha || c = '[' || c = ']')

section Found

variable {t : Tables}

theorem foreign_of_tables {x : Char} (hx : x ∈ ['[', ']', '…']) (hdigit : t.digit x = false)
    (hspace : t.space x = false) {d : Detector}
    (h : (pattern d).classes.all (fun k => k.all (Item.avoids x)) = true) :
    (pattern d).Rejects t.accepts x := by
  intro k hk
  rw [Tables.accepts, List.any_eq_false]
  intro i hi
  have havoids : i.avoids x = true := List.all_eq_true.mp (List.all_eq_true.mp h k hk) i hi
  cases i with
  | char a =>
      have hne : a ≠ x := by simpa [Item.avoids] using havoids
      simpa [Tables.item] using Ne.symm hne
  | range first last =>
      have hout : (decide (first ≤ x) && decide (x ≤ last)) = false := by
        simpa only [Item.avoids, Bool.not_eq_true'] using havoids
      rw [Tables.item, hout]
      exact Bool.false_ne_true
  | digit => simp [Tables.item, hdigit]
  | space => simp [Tables.item, hspace]
  | fold l =>
      have hne : l ≠ x := by simpa [Item.avoids] using havoids
      simpa [Tables.item, t.fold_mark l x hx] using hne

theorem digit_false {x : Char} (h : (x.toNat < 128 && !x.isDigit) = true) : t.digit x = false := by
  obtain ⟨hascii, hdigit⟩ := Bool.and_eq_true_iff.mp h
  rw [t.digit_ascii x (of_decide_eq_true hascii)]
  simpa using hdigit

/-- The brackets and the mark of a cut are foreign to the expressions. -/
theorem foreign (d : Detector) {x : Char} (hx : x ∈ ['[', ']', '…']) :
    (pattern d).Rejects t.accepts x ∧ t.word x = false := by
  have hchars : (Dlp.detectors.all fun d => ['[', ']', '…'].all fun x =>
      (pattern d).classes.all fun k => k.all (Item.avoids x)) = true := by decide +kernel
  have hd : d ∈ Dlp.detectors := by cases d <;> decide
  have havoids := List.all_eq_true.mp (List.all_eq_true.mp hchars d hd) x hx
  have htables : t.digit x = false ∧ t.space x = false ∧ t.word x = false := by
    rcases List.mem_cons.mp hx with rfl | hx
    · exact ⟨digit_false rfl, t.space_ascii _ (by decide), t.word_ascii _ (by decide)⟩
    rcases List.mem_cons.mp hx with rfl | hx
    · exact ⟨digit_false rfl, t.space_ascii _ (by decide), t.word_ascii _ (by decide)⟩
    · obtain rfl := List.mem_singleton.mp hx
      exact t.ellipsis
  exact ⟨foreign_of_tables hx htables.1 htables.2.1 havoids, htables.2.2⟩

/-- What is plain has nothing that a match needs. -/
theorem lacks_plain {s : Text} (hs : s.all plain = true) :
    TextPattern.Lacks t.accepts telling s := by
  intro c hc k hk
  obtain ⟨hascii, hplain⟩ := Bool.and_eq_true_iff.mp (List.all_eq_true.mp hs c hc)
  replace hascii := of_decide_eq_true hascii
  -- the code of the character
  have hcode : (65 ≤ c.toNat ∧ c.toNat ≤ 90) ∨ (97 ≤ c.toNat ∧ c.toNat ≤ 122) ∨
      c.toNat = 91 ∨ c.toNat = 93 := by
    rcases Bool.or_eq_true_iff.mp hplain with hplain | hclose
    · rcases Bool.or_eq_true_iff.mp hplain with halpha | hopen
      · rcases Bool.or_eq_true_iff.mp halpha with hupper | hlower
        · exact .inl (of_decide_eq_true hupper)
        · obtain ⟨hlo, hhi⟩ := Bool.and_eq_true_iff.mp hlower
          exact .inr (.inl ⟨of_decide_eq_true hlo, of_decide_eq_true hhi⟩)
      · rw [of_decide_eq_true hopen]
        decide
    · rw [of_decide_eq_true hclose]
      decide
  have hne : ∀ x : Char, x.toNat < 65 ∨ 122 < x.toNat → c ≠ x := by
    rintro x hx rfl
    omega
  have hdigit : t.digit c = false := by
    rw [t.digit_ascii c hascii, Bool.eq_false_iff]
    intro hdigit
    have hle : c.toNat ≤ 57 := of_decide_eq_true (Bool.and_eq_true_iff.mp hdigit).2
    omega
  have hspace : t.space c = false := by
    have hblank : c ≠ ' ' := hne ' ' (by decide)
    rw [t.space_ascii c hascii, Bool.or_eq_false_iff]
    refine ⟨by simpa using hblank, ?_⟩
    rw [Bool.and_eq_false_iff]
    right
    rw [decide_eq_false_iff_not]
    omega
  have hcapital : ∀ a b : Char, 122 < a.toNat → (decide (a ≤ c) && decide (c ≤ b)) = false := by
    intro a b ha
    have hlow : ¬ a ≤ c := fun hle => by
      have hle' : a.toNat ≤ c.toNat := hle
      omega
    simp [hlow]
  have hclasses : k ∈ [[.char '@'], [.digit], [.space], [.char '/'], chars ":=", capital] :=
    of_decide_eq_true hk
  simp only [List.mem_cons, List.not_mem_nil, or_false] at hclasses
  rcases hclasses with rfl | rfl | rfl | rfl | rfl | rfl
  · simpa [Tables.accepts, Tables.item] using hne '@' (by decide)
  · simp [Tables.accepts, Tables.item, hdigit]
  · simp [Tables.accepts, Tables.item, hspace]
  · simpa [Tables.accepts, Tables.item] using hne '/' (by decide)
  · have hcolon := hne ':' (by decide)
    have hequals := hne '=' (by decide)
    have hboth : chars ":=" = [.char ':', .char '='] := rfl
    simp [hboth, Tables.accepts, Tables.item, hcolon, hequals]
  · have hyo := hne 'Ё' (by decide)
    simp [capital, Tables.accepts, Tables.item, hyo, hcapital 'А' 'Я' (by decide)]

theorem needs_telling (d : Detector) : (pattern d).needs telling = true := by
  have hneeds : (Dlp.detectors.all fun d => (pattern d).needs telling) = true := by decide +kernel
  exact List.all_eq_true.mp hneeds d (by cases d <;> decide)

theorem found_plain (d : Detector) {s : Text} (hs : s.all plain = true) : t.found d s = false :=
  TextPattern.search_eq_false (needs_telling d) (lacks_plain hs) false

theorem isLabel_plain (d : Detector) {mid : Text} (hmid : mid.all plain = true) :
    TextPattern.IsLabel t.accepts t.word telling (pattern d) '[' mid ']' := by
  obtain ⟨hopen, hopenWord⟩ := foreign (t := t) d (x := '[') (by decide)
  obtain ⟨hclose, hcloseWord⟩ := foreign (t := t) d (x := ']') (by decide)
  exact ⟨hopenWord, hopen, lacks_plain hmid, hcloseWord, hclose⟩

theorem steady_redacted {d : Detector} (hd : d ∈ redacted) :
    (pattern d).steady = true ∧ (pattern d).needs (fun _ => true) = true := by
  have hall : (redacted.all fun d =>
      (pattern d).steady && (pattern d).needs (fun _ => true)) = true := by decide +kernel
  exact Bool.and_eq_true_iff.mp (List.all_eq_true.mp hall d hd)

theorem found_replace_self {d : Detector} (hd : d ∈ redacted) {label : Text}
    (hlabel : label.all plain = true) {rep : String}
    (hrep : rep.toList = '[' :: label ++ [']']) (text : Text) :
    t.found d (t.replace d rep text) = false := by
  obtain ⟨hopen, hopenWord⟩ := foreign (t := t) d (x := '[') (by decide)
  obtain ⟨hclose, hcloseWord⟩ := foreign (t := t) d (x := ']') (by decide)
  obtain ⟨hsteady, hletter⟩ := steady_redacted hd
  rw [Tables.found, Tables.replace, hrep]
  exact TextPattern.search_replaceAll_self hopenWord hcloseWord hopen hclose hsteady hletter
    (found_plain d hlabel) text

/-- What is not found is not found where something else is replaced. -/
theorem found_replace {d : Detector} (hd : d ∈ redacted) {label : Text}
    (hlabel : label.all plain = true) {rep : String}
    (hrep : rep.toList = '[' :: label ++ [']']) (e : Detector) {text : Text}
    (htext : t.found d text = false) : t.found d (t.replace e rep text) = false := by
  obtain ⟨hopen, hopenWord⟩ := foreign (t := t) d (x := '[') (by decide)
  obtain ⟨hclose, hcloseWord⟩ := foreign (t := t) d (x := ']') (by decide)
  rw [Tables.found, Tables.replace, hrep]
  exact TextPattern.search_replaceAll hopenWord hcloseWord hopen hclose (steady_redacted hd).1
    (found_plain d hlabel) (pattern e) htext

/-- None of the detectors of `redact` finds anything in what it returns. -/
theorem found_redact {d : Detector} (hd : d ∈ redacted) (log : AuditLog)
    (hon : log.dlpRedact = true) (text : Text) : t.found d (log.redact t text) = false := by
  rw [AuditLog.redact, if_pos hon]
  have hcard : "CARD".toList.all plain = true := by decide
  have hphone : "PHONE".toList.all plain = true := by decide
  rcases List.mem_cons.mp hd with rfl | hlater
  · refine found_replace hd hphone rfl .phone (found_replace hd hcard rfl .card ?_)
    have hemail : "EMAIL".toList.all plain = true := by decide
    exact found_replace_self hd hemail rfl text
  rcases List.mem_cons.mp hlater with rfl | hlast
  · exact found_replace_self hd hphone rfl _
  · obtain rfl := List.mem_singleton.mp hlast
    exact found_replace hd hphone rfl .phone (found_replace_self hd hcard rfl _)

theorem found_truncate {d : Detector} (hd : d ∈ redacted) {text : Text}
    (h : t.found d text = false) : t.found d (truncateAuditText text) = false := by
  unfold truncateAuditText
  split_ifs
  · exact h
  · obtain ⟨hforeign, hword⟩ := foreign (t := t) d (x := '…') (by decide)
    have hmark : t.found d "[truncated]".toList = false := found_plain d (by decide)
    have hhead : t.found d (text.take maxAuditTextChars) = false :=
      TextPattern.search_infix (steady_redacted hd).1 (List.take_prefix _ text).isInfix h false
    have hcut : "…[truncated]".toList = '…' :: "[truncated]".toList := rfl
    rw [Tables.found, hcut, TextPattern.search_append_foreign hword hforeign]
    exact Bool.or_eq_false_iff.mpr ⟨hhead, hmark⟩

theorem found_stored {d : Detector} (hd : d ∈ redacted) {log : AuditLog}
    (hon : log.dlpRedact = true) (text : Text) :
    t.found d (log.stored t text).toList = false := by
  rw [AuditLog.stored, String.toList_ofList]
  exact found_truncate hd (found_redact hd log hon text)

/-! ### The parts that are left -/

/-- A text with what `redact` replaces in it, one expression after the other. -/
def marked (t : Tables) (text : Text) : TextPattern.Labelled Char :=
  (((⟨text, []⟩ : TextPattern.Labelled Char).replace t.accepts t.word (pattern .email)
    "[EMAIL]".toList).replace t.accepts t.word (pattern .card)
    "[CARD]".toList).replace t.accepts t.word (pattern .phone) "[PHONE]".toList

/-- The parts around what is replaced, as far as they lie in front of the bound. -/
def partsLeft (t : Tables) (text : Text) : List Text := (marked t text).cut maxAuditTextChars

theorem sealed_marked (t : Tables) (d : Detector) (text : Text) :
    (marked t text).Sealed t.accepts t.word telling (pattern d) ∧
      (marked t text).text = AuditLog.redact t ⟨true, true, []⟩ text := by
  have hempty : ∀ d', (⟨text, []⟩ : TextPattern.Labelled Char).Sealed t.accepts t.word telling
      (pattern d') := fun _ e he => absurd he List.not_mem_nil
  have hlabel : ∀ d' : Detector, ∀ mid ∈ ["EMAIL".toList, "CARD".toList, "PHONE".toList],
      ∃ o mid' c, '[' :: mid ++ [']'] = o :: mid' ++ [c] ∧
        TextPattern.IsLabel t.accepts t.word telling (pattern d') o mid' c := by
    intro d' mid hmid
    have hplain : (["EMAIL".toList, "CARD".toList, "PHONE".toList].all fun mid =>
        mid.all plain) = true := by decide
    exact ⟨'[', mid, ']', rfl, isLabel_plain d' (List.all_eq_true.mp hplain mid hmid)⟩
  have hfirst := fun d' => TextPattern.Labelled.sealed_replace (r := pattern .email) (hempty d')
    (hlabel d' "EMAIL".toList (by decide))
  have hsecond := fun d' => TextPattern.Labelled.sealed_replace (r := pattern .card) (hfirst d')
    (hlabel d' "CARD".toList (by decide))
  refine ⟨TextPattern.Labelled.sealed_replace (hsecond d) (hlabel d "PHONE".toList (by decide)), ?_⟩
  have hreplace := fun (d' : Detector) (hd : d' ∈ redacted) {s : TextPattern.Labelled Char}
      (hs : s.Sealed t.accepts t.word telling (pattern d')) =>
    TextPattern.Labelled.text_replace (needs_telling d') (steady_redacted hd).2 hs
  refine (hreplace .phone (by decide) (hsecond .phone) "[PHONE]".toList).trans ?_
  refine (congrArg _ (hreplace .card (by decide) (hfirst .card) "[CARD]".toList)).trans ?_
  refine (congrArg (fun x => TextPattern.replaceAll _ _ _ _ (TextPattern.replaceAll _ _ _ _ x))
    (hreplace .email (by decide) (hempty .email) "[EMAIL]".toList)).trans ?_
  simp [AuditLog.redact, Tables.replace, TextPattern.Labelled.text]

/-- **A detector finds something in what is stored of a text exactly when it does in a part that is
left.** -/
theorem found_stored_eq (t : Tables) (d : Detector) {log : AuditLog} (hon : log.dlpRedact = true)
    (text : Text) :
    t.found d (log.stored t text).toList = (partsLeft t text).any (t.found d) := by
  obtain ⟨hsealed, htext⟩ := sealed_marked t d text
  have hredact : log.redact t text = (marked t text).text := by
    rw [htext, AuditLog.redact, if_pos hon]
    rfl
  have hcut := TextPattern.Labelled.search_cut (needs_telling d) hsealed maxAuditTextChars
  rw [AuditLog.stored, String.toList_ofList, hredact, truncateAuditText]
  refine Eq.trans ?_ hcut
  split_ifs with hfits
  · rw [List.take_of_length_le hfits]
    rfl
  · obtain ⟨hforeign, hword⟩ := foreign (t := t) d (x := '…') (by decide)
    have hmark : t.found d "[truncated]".toList = false := found_plain d (by decide)
    have hsplit : "…[truncated]".toList = '…' :: "[truncated]".toList := rfl
    rw [Tables.found, hsplit, TextPattern.search_append_foreign hword hforeign]
    exact (congrArg _ hmark).trans (Bool.or_false _)

/-- The detectors that `redact` passes over find nothing in the parts of the text that are left. -/
def Clean (t : Tables) (text : Text) : Prop :=
  ∀ d ∈ Dlp.detectors, d ∉ redacted → ∀ part ∈ partsLeft t text, t.found d part = false

theorem clean_iff (t : Tables) {log : AuditLog} (hon : log.dlpRedact = true) (text : Text) :
    (∀ d ∈ Dlp.detectors, t.found d (log.stored t text).toList = false) ↔ Clean t text := by
  constructor
  · intro h d hd _ part hpart
    have hnone := h d hd
    rw [found_stored_eq t d hon, List.any_eq_false] at hnone
    exact Bool.eq_false_iff.mpr (hnone part hpart)
  · intro h d hd
    by_cases hredacted : d ∈ redacted
    · exact found_stored hredacted hon text
    · rw [found_stored_eq t d hon, List.any_eq_false]
      exact fun part hpart => Bool.eq_false_iff.mp (h d hd hredacted part hpart)

end Found

/-- A text in which `redact` finds nothing is stored as it is. -/
theorem stored_unchanged (t : Tables) (log : AuditLog) {text : Text}
    (h : ∀ d ∈ redacted, t.found d text = false) (hfits : text.length ≤ maxAuditTextChars) :
    log.stored t text = String.ofList text := by
  have hsame : log.redact t text = text := by
    unfold AuditLog.redact
    split_ifs
    · have hreplace : ∀ d ∈ redacted, ∀ rep, t.replace d rep text = text := fun d hd rep =>
        TextPattern.replaceAll_eq_self (h d hd)
      simp only [hreplace .email (by decide), hreplace .card (by decide),
        hreplace .phone (by decide)]
    · rfl
  rw [AuditLog.stored, hsame, truncateAuditText, if_pos hfits]

/-! ### The rows of the log -/

/-- The row has the text, as its messages or as its response. -/
def Holds (row : AuditSearch.Row) (s : String) : Prop :=
  row.messages = .text s ∨ row.responseText = .text s

/-- Every text of the log has been stored by `write`. -/
def AuditLog.Redacted (t : Tables) (log : AuditLog) : Prop :=
  log.dlpRedact = true ∧ ∀ row ∈ log.table, ∀ s, Holds row s → ∀ d ∈ redacted,
    t.found d s.toList = false

theorem redacted_write {t : Tables} {log : AuditLog} (h : log.Redacted t) (w : Write) :
    (log.write t w).Redacted t := by
  obtain ⟨hon, hrows⟩ := h
  unfold AuditLog.write
  split_ifs
  · refine ⟨hon, fun row hrow => ?_⟩
    rcases List.mem_append.mp hrow with hold | hnew
    · exact hrows row hold
    · obtain rfl := List.mem_singleton.mp hnew
      rintro s (hs | hs) d hd
      · obtain rfl := AuditSearch.SqlValue.text.inj hs
        exact found_stored hd hon _
      · obtain rfl := AuditSearch.SqlValue.text.inj hs
        exact found_stored hd hon _
  · exact ⟨hon, hrows⟩

theorem redacted_logOf (t : Tables) (enabled : Bool) (ws : List Write) :
    (logOf t enabled ws).Redacted t := by
  have hrun : ∀ log : AuditLog, log.Redacted t → (ws.foldl (AuditLog.write t) log).Redacted t := by
    induction ws with
    | nil => exact fun _ h => h
    | cons w ws ih => exact fun log h => ih _ (redacted_write h w)
  exact hrun _ ⟨rfl, fun row hrow => absurd hrow List.not_mem_nil⟩

/-- The write is carried out, and stores the text. -/
def Stores (t : Tables) (w : Write) (s : String) : Prop :=
  w.stores = true ∧ ∃ text ∈ [w.messagesJson, w.responseText],
    AuditLog.stored t ⟨true, true, []⟩ text = s

theorem holds_write {t : Tables} {log : AuditLog} (hon : log.dlpRedact = true) (w : Write)
    (s : String) : (∃ row ∈ (log.write t w).table, Holds row s) ↔
      (∃ row ∈ log.table, Holds row s) ∨ log.enabled = true ∧ Stores t w s := by
  have hstored : ∀ text, log.stored t text = AuditLog.stored t ⟨true, true, []⟩ text := by
    intro text
    rw [AuditLog.stored, AuditLog.stored, AuditLog.redact, AuditLog.redact, if_pos hon, if_pos rfl]
  unfold AuditLog.write
  split_ifs with hwrite
  · obtain ⟨henabled, hstores⟩ := Bool.and_eq_true_iff.mp hwrite
    simp [Holds, Stores, henabled, hstores, hstored, or_and_right, exists_or]
  · have hnot : ¬ (log.enabled = true ∧ Stores t w s) := fun h =>
      hwrite (Bool.and_eq_true_iff.mpr ⟨h.1, h.2.1⟩)
    rw [or_iff_left hnot]

theorem holds_logOf_iff (t : Tables) (enabled : Bool) (ws : List Write) (s : String) :
    (∃ row ∈ (logOf t enabled ws).table, Holds row s) ↔
      enabled = true ∧ ∃ w ∈ ws, Stores t w s := by
  have hrun : ∀ log : AuditLog, log.dlpRedact = true →
      ((∃ row ∈ (ws.foldl (AuditLog.write t) log).table, Holds row s) ↔
        (∃ row ∈ log.table, Holds row s) ∨ log.enabled = true ∧ ∃ w ∈ ws, Stores t w s) := by
    induction ws with
    | nil => simp
    | cons w ws ih =>
        intro log hon
        have hsettings : (log.write t w).dlpRedact = true ∧
            (log.write t w).enabled = log.enabled := by
          unfold AuditLog.write
          split_ifs
          · exact ⟨hon, rfl⟩
          · exact ⟨hon, rfl⟩
        rw [List.foldl_cons, ih _ hsettings.1, holds_write hon, hsettings.2,
          List.exists_mem_cons_iff, and_or_left, or_assoc]
  have hlog := hrun ⟨enabled, true, []⟩ rfl
  simpa [logOf] using hlog

/-- Tables that are right on ASCII and on Russian letters. -/
def sampleTables : Tables where
  digit := Char.isDigit
  space c := c = ' ' || (9 ≤ c.toNat && c.toNat ≤ 13)
  word c := c.isAlphanum || c = '_' || ('А' ≤ c && c ≤ 'я') || c = 'Ё' || c = 'ё'
  fold l c := c = l
  digit_ascii _ _ := rfl
  space_ascii _ _ := rfl
  word_ascii c hc := by
    have hlow : ¬ 'А' ≤ c := fun hle => absurd (show 1040 ≤ c.toNat from hle) (by omega)
    have hcapital : c ≠ 'Ё' := fun heq => by rw [heq] at hc; exact absurd hc (by decide)
    have hsmall : c ≠ 'ё' := fun heq => by rw [heq] at hc; exact absurd hc (by decide)
    simp [hlow, hcapital, hsmall]
  ellipsis := by decide
  fold_mark l x _ := decide_eq_decide.mpr eq_comm

/-- A text with a match of the detector that `redact` leaves alone. -/
def unredacted : Detector → String
  | .passport => "4510 123456"
  | .snils => "112-233-445 95"
  | .inn => "7707123456"
  | .person => "Иван Петров"
  | .onlineAccount => "login ivan_p on site.com"
  | .profileUrl => "t.me/ivan"
  | .socialHandle => "@ivan"
  | .username => "user: ivan"
  | .email | .phone | .card => ""

theorem unredacted_found {d : Detector} (hd : d ∉ redacted) :
    sampleTables.found d (unredacted d).toList = true ∧
      ∀ e ∈ redacted, sampleTables.found e (unredacted d).toList = false := by
  have hall : (Dlp.detectors.all fun d => redacted.contains d ||
      (sampleTables.found d (unredacted d).toList &&
        redacted.all fun e => !sampleTables.found e (unredacted d).toList)) = true := by
    decide +kernel
  have hmem : d ∈ Dlp.detectors := by cases d <;> decide
  have hone := List.all_eq_true.mp hall d hmem
  rw [Bool.or_eq_true, List.contains_iff_mem, or_iff_right hd, Bool.and_eq_true] at hone
  exact ⟨hone.1, fun e he => by simpa using List.all_eq_true.mp hone.2 e he⟩

/-- A request with the text, audited. -/
def auditedText (s : String) : Write :=
  ⟨"2026-09-06T00:00:00Z", "alice", "p", "m", "ok", 1, 1, s.toList, [], "upstream", "req-1", true⟩

theorem unredacted_stored {d : Detector} (hd : d ∉ redacted) :
    ∃ row ∈ (logOf sampleTables true [auditedText (unredacted d)]).table,
      Holds row (unredacted d) := by
  have hfits : (unredacted d).toList.length ≤ maxAuditTextChars := by cases d <;> decide
  have hsame := stored_unchanged sampleTables ⟨true, true, []⟩ (unredacted_found hd).2 hfits
  rw [String.ofList_toList] at hsame
  exact ⟨_, List.mem_singleton_self _, .inl (congrArg AuditSearch.SqlValue.text hsame)⟩

theorem log_clean_iff (t : Tables) (enabled : Bool) (ws : List Write) :
    (∀ row ∈ (logOf t enabled ws).table, ∀ s, Holds row s →
        ∀ d ∈ Dlp.detectors, t.found d s.toList = false) ↔
      (enabled = true → ∀ w ∈ ws, w.stores = true →
        Clean t w.messagesJson ∧ Clean t w.responseText) := by
  have hholds := holds_logOf_iff t enabled ws
  constructor
  · intro h henabled w hw hstores
    have hclean : ∀ text ∈ [w.messagesJson, w.responseText], Clean t text := by
      intro text htext
      obtain ⟨row, hrow, hs⟩ := (hholds _).mpr ⟨henabled, w, hw, hstores, text, htext, rfl⟩
      exact (clean_iff t rfl text).mp (h row hrow _ hs)
    exact ⟨hclean _ (by simp), hclean _ (by simp)⟩
  · intro h row hrow s hs
    obtain ⟨henabled, w, hw, hstores, text, htext, rfl⟩ := (hholds s).mp ⟨row, hrow, hs⟩
    obtain ⟨hmessages, hresponse⟩ := h henabled w hw hstores
    have hclean : Clean t text := by
      rcases List.mem_pair.mp htext with rfl | rfl
      · exact hmessages
      · exact hresponse
    exact (clean_iff t rfl text).mpr hclean

/-- **The log stores no match of a detector exactly when the detectors that `redact` passes over
find nothing in the parts of the texts that it leaves; the detectors of which nothing is ever
stored, whatever is written, are those whose expressions `redact` has: email, phone and card.** -/
theorem stored_clean_iff (t : Tables) (enabled : Bool) (ws : List Write) :
    ((∀ row ∈ (logOf t enabled ws).table, ∀ s, Holds row s →
        ∀ d ∈ Dlp.detectors, t.found d s.toList = false) ↔
      (enabled = true → ∀ w ∈ ws, w.stores = true →
        Clean t w.messagesJson ∧ Clean t w.responseText)) ∧
      ∀ d : Detector, (∀ (t : Tables) (enabled : Bool) (ws : List Write),
        ∀ row ∈ (logOf t enabled ws).table, ∀ s, Holds row s → t.found d s.toList = false) ↔
          d ∈ redacted := by
  refine ⟨log_clean_iff t enabled ws,
    fun d => ⟨fun hclean => ?_, fun hd t enabled ws row hrow s hs => ?_⟩⟩
  · by_contra hd
    obtain ⟨row, hrow, hholds⟩ := unredacted_stored hd
    have hnone := hclean sampleTables true _ row hrow _ hholds
    rw [(unredacted_found hd).1] at hnone
    cases hnone
  · exact (redacted_logOf t enabled ws).2 row hrow s hs d hd

/-- The number of a taxpayer is stored. -/
theorem taxpayer_stored :
    ¬ ∀ (t : Tables) (enabled : Bool) (ws : List Write), ∀ row ∈ (logOf t enabled ws).table,
      ∀ s, Holds row s → ∀ d ∈ Dlp.detectors, t.found d s.toList = false := by
  intro hclean
  have hinn : Detector.inn ∉ redacted := by decide
  obtain ⟨row, hrow, hholds⟩ := unredacted_stored hinn
  have hnone := hclean sampleTables true _ row hrow _ hholds .inn (by decide)
  rw [(unredacted_found hinn).1] at hnone
  cases hnone

end FirewallLLM.Redaction
