import FirewallLLM.PyJson

/-! # The audit log of the Python gateway

`AuditLog.write` redacts the messages, serializes them, truncates the text and inserts a row;
`AuditLog.search` selects rows and decodes their messages.  A message is a dictionary, so no key
is in it twice (`Message`).  The sanitizer and the codec of floats are parameters.

A text that has been truncated is never decoded again, and one such row lets every search raise
that selects it (`search_stored`). -/

namespace FirewallLLM.PyAudit

open JsonText PyJson

/-- `MAX_AUDIT_TEXT_CHARS` -/
def maxAuditTextChars : ℕ := 8000

/-- `"…[truncated]"` -/
def truncatedMark : Text := ['…', '[', 't', 'r', 'u', 'n', 'c', 'a', 't', 'e', 'd', ']']

/-- `truncate_audit_text` -/
def truncateAuditText (text : Text) : Text :=
  if text.length ≤ maxAuditTextChars then text else text.take maxAuditTextChars ++ truncatedMark

inductive AuditError where
  | json (e : JsonError)
  /-- Python int too large to convert to SQLite INTEGER. -/
  | overflow
  /-- `datatype mismatch`, of a limit that is no integer to SQLite. -/
  | datatypeMismatch

/-- A dictionary. -/
structure Message (F : Type) where
  fields : List (Text × Value F)
  unique : (Doc.obj fields).UniqueKeys

/-- The arguments of `write`, and the time at which it inserts its row. -/
structure WriteCall (F : Type) where
  ts : String
  client : String
  provider : String
  model : String
  code : String
  promptTokens : ℤ
  completionTokens : ℤ
  messages : List (Message F)
  responseText : Text
  usageSource : String
  requestId : String

/-- A row of the table, or with decoded messages of type `M` a record that `search` returns. -/
structure Row (M : Type) where
  ts : String
  client : String
  provider : String
  model : String
  code : String
  promptTokens : ℤ
  completionTokens : ℤ
  messages : M
  responseText : Text
  usageSource : String
  requestId : String

/-- The parts of an `AuditLog` besides its table. -/
structure Settings (F : Type) where
  dlpRedact : Bool
  sanitize : Text → Text
  text : FloatText F

/-- The rows in the order of insertion. -/
abbrev Table := List (Row Text)

/-! ### Writing -/

section Write

variable {F : Type} (cfg : Settings F)

/-- `_redact` -/
def redact (text : Text) : Text := if cfg.dlpRedact then cfg.sanitize text else text

/-- The redacted content of a message. -/
def redactContent (fields : List (Text × Value F)) : Value F :=
  match fields.lookup "content".toList with
  | some (.str s) => .str (redact cfg s)
  | some v => v
  | none => .null

/-- `{**message, "content": …}` -/
def redactMessage (fields : List (Text × Value F)) : Value F :=
  .obj (setField "content".toList (redactContent cfg fields) fields)

/-- `redacted_messages` -/
def redactedMessages (call : WriteCall F) : Value F :=
  .arr (call.messages.map (fun m => redactMessage cfg m.fields))

/-- SQLite stores integers of 64 bits. -/
def fitsInteger (n : ℤ) : Bool := -2 ^ 63 ≤ n ∧ n < 2 ^ 63

/-- The row of a call with the given messages. -/
def rowOf {M : Type} (call : WriteCall F) (messages : M) : Row M where
  ts := call.ts
  client := call.client
  provider := call.provider
  model := call.model
  code := call.code
  promptTokens := call.promptTokens
  completionTokens := call.completionTokens
  messages := messages
  responseText := truncateAuditText (redact cfg call.responseText)
  usageSource := call.usageSource
  requestId := call.requestId

/-- `AuditLog.write` -/
def write (table : Table) (call : WriteCall F) : Except AuditError Table :=
  match dumps cfg.text (redactedMessages cfg call) with
  | .error e => .error (.json e)
  | .ok s =>
      if fitsInteger call.promptTokens && fitsInteger call.completionTokens then
        .ok (table ++ [rowOf cfg call (truncateAuditText s)])
      else .error .overflow

/-- The table after calls of `write`; one that raises leaves it as it is. -/
def writeAll (table : Table) : List (WriteCall F) → Table
  | [] => table
  | call :: calls => match write cfg table call with
      | .ok table' => writeAll table' calls
      | .error _ => writeAll table calls

end Write

/-! ### Searching -/

/-- The `WHERE` clause; a filter that is `None` has no condition. -/
def Row.selected {M : Type} (client code : Option String) (row : Row M) : Bool :=
  (match client with
    | some client => row.client = client
    | none => true) &&
  (match code with
    | some code => row.code = code
    | none => true)

/-- `ORDER BY id DESC LIMIT ?` with the limit bound as text: no limit where it is negative. -/
def limitRows {α : Type} (limit : ℤ) (rows : List α) : Except AuditError (List α) :=
  if limit < -2 ^ 63 then .error .datatypeMismatch
  else if limit < 0 then .ok rows
  else .ok (rows.take limit.toNat)

/-- The record of a row. -/
def record {F : Type} (text : FloatText F) (row : Row Text) : Except AuditError (Row (Value F)) :=
  match loads text row.messages with
  | .ok messages => .ok { row with messages := messages }
  | .error e => .error (.json e)

/-- The records of rows; the first that cannot be decoded raises. -/
def records {F : Type} (text : FloatText F) :
    List (Row Text) → Except AuditError (List (Row (Value F)))
  | [] => .ok []
  | row :: rows => match record text row with
      | .error e => .error e
      | .ok r => match records text rows with
          | .error e => .error e
          | .ok rs => .ok (r :: rs)

/-- `AuditLog.search` -/
def search {F : Type} (text : FloatText F) (table : Table) (client code : Option String)
    (limit : ℤ) : Except AuditError (List (Row (Value F))) :=
  match limitRows limit (table.filter (Row.selected client code)).reverse with
  | .ok rows => records text rows
  | .error e => .error e

/-- `admin_audit` -/
def adminAudit {F : Type} (text : FloatText F) (table : Table) (client code : Option String)
    (limit : ℤ) : Except AuditError (List (Row (Value F))) :=
  search text table client code (min limit 1000)

/-! ### What was stored -/

section Stored

variable {F : Type} (cfg : Settings F)

/-- The record that a call of `write` stores, if it does not raise: its messages are the redacted
ones. -/
def stored (call : WriteCall F) : Option (Row (Value F)) :=
  if (redactedMessages cfg call).all short && fitsInteger call.promptTokens &&
      fitsInteger call.completionTokens then
    some (rowOf cfg call (redactedMessages cfg call))
  else none

/-- The stored records that match, newest first. -/
def newest (calls : List (WriteCall F)) (client code : Option String) : List (Row (Value F)) :=
  ((calls.filterMap (stored cfg)).filter (Row.selected client code)).reverse

/-- The row of a stored record. -/
def encodeRow (r : Row (Value F)) : Row Text :=
  { r with messages := truncateAuditText (print (numerals cfg.text) r.messages) }

/-- The messages of a record fit into the column. -/
def Row.Fits (r : Row (Value F)) : Prop :=
  (print (numerals cfg.text) r.messages).length ≤ maxAuditTextChars

/-- The newest records that match are read back, at most a thousand and as many as asked for. -/
def ReadBack (calls : List (WriteCall F)) (client code : Option String) (limit : ℤ) : Prop :=
  ∃ n : ℕ, n ≤ 1000 ∧ (0 ≤ limit → (n : ℤ) = min limit 1000) ∧
    adminAudit cfg.text (writeAll cfg [] calls) client code limit =
      .ok ((newest cfg calls client code).take n)

/-! ### Redacted messages are dictionaries -/

theorem fst_setField {α : Type} (key : Text) (v : α) (fields : List (Text × α)) :
    (setField key v fields).map Prod.fst =
      if key ∈ fields.map Prod.fst then fields.map Prod.fst else fields.map Prod.fst ++ [key] := by
  induction fields with
  | nil => rfl
  | cons e fields ih =>
      by_cases he : e.1 = key
      · simp [setField, he]
      · have hne : key ≠ e.1 := Ne.symm he
        simp only [setField, if_neg he, List.map_cons, ih, List.mem_cons, hne, false_or]
        split_ifs <;> rfl

theorem uniqueFields_setField {key : Text} {v : Value F} (hv : v.UniqueKeys)
    {fields : List (Text × Value F)} (h : UniqueFields fields) :
    UniqueFields (setField key v fields) := by
  induction fields with
  | nil => exact ⟨hv, trivial⟩
  | cons e fields ih =>
      obtain ⟨k, d⟩ := e
      rw [setField]
      split_ifs
      · exact ⟨hv, h.2⟩
      · exact ⟨h.1, ih h.2⟩

theorem uniqueKeys_setField {key : Text} {v : Value F} (hv : v.UniqueKeys)
    {fields : List (Text × Value F)} (h : (Doc.obj fields).UniqueKeys) :
    (Doc.obj (setField key v fields)).UniqueKeys := by
  refine ⟨?_, uniqueFields_setField hv h.2⟩
  rw [fst_setField]
  split_ifs with hmem
  · exact h.1
  · exact List.nodup_append.mpr ⟨h.1, List.pairwise_singleton _ _, fun a ha b hb heq =>
      hmem (by rw [← List.mem_singleton.mp hb, ← heq]; exact ha)⟩

theorem uniqueKeys_lookup {key : Text} {v : Value F} {fields : List (Text × Value F)}
    (h : UniqueFields fields) (hv : fields.lookup key = some v) : v.UniqueKeys := by
  induction fields with
  | nil => cases hv
  | cons e fields ih =>
      obtain ⟨k, d⟩ := e
      rw [List.lookup_cons] at hv
      split at hv
      · cases hv
        exact h.1
      · exact ih h.2 hv

theorem uniqueKeys_redactContent {fields : List (Text × Value F)} (h : UniqueFields fields) :
    (redactContent cfg fields).UniqueKeys := by
  unfold redactContent
  split
  · trivial
  · rename_i hv
    exact uniqueKeys_lookup h hv
  · trivial

theorem uniqueItems_map {α : Type} {f : α → Value F} {xs : List α}
    (h : ∀ x ∈ xs, (f x).UniqueKeys) : UniqueItems (xs.map f) := by
  induction xs with
  | nil => trivial
  | cons x xs ih =>
      obtain ⟨hx, hxs⟩ := List.forall_mem_cons.mp h
      exact ⟨hx, ih hxs⟩

theorem uniqueKeys_redactedMessages (call : WriteCall F) :
    (redactedMessages cfg call).UniqueKeys :=
  uniqueItems_map fun m _ =>
    uniqueKeys_setField (uniqueKeys_redactContent cfg m.unique.2) m.unique

/-! ### The table -/

/-- What a call stores is well formed and is written in full by `dumps`. -/
structure Stored (r : Row (Value F)) : Prop where
  unique : r.messages.UniqueKeys
  dumped : dumps cfg.text r.messages = .ok (print (numerals cfg.text) r.messages)

theorem stored_spec {call : WriteCall F} {r : Row (Value F)} (h : stored cfg call = some r) :
    Stored cfg r := by
  unfold stored at h
  split_ifs at h with hok
  cases h
  simp only [Bool.and_eq_true] at hok
  exact ⟨uniqueKeys_redactedMessages cfg call, if_pos hok.1.1⟩

theorem write_stored (table : Table) {call : WriteCall F} {r : Row (Value F)}
    (h : stored cfg call = some r) : write cfg table call = .ok (table ++ [encodeRow cfg r]) := by
  unfold stored at h
  split_ifs at h with hok
  cases h
  simp only [Bool.and_eq_true] at hok
  obtain ⟨⟨hshort, hprompt⟩, hcompletion⟩ := hok
  simp only [write, dumps, hshort, hprompt, hcompletion, Bool.and_self, if_true]
  rfl

/-- A call that stores nothing raises. -/
theorem write_unstored (table : Table) {call : WriteCall F} (h : stored cfg call = none) :
    ∃ e, write cfg table call = .error e := by
  unfold stored at h
  split_ifs at h with hok
  unfold write dumps
  by_cases hshort : (redactedMessages cfg call).all short = true
  · rw [if_pos hshort]
    rw [hshort, Bool.true_and] at hok
    exact ⟨.overflow, if_neg hok⟩
  · rw [if_neg hshort]
    exact ⟨.json .intTooLong, rfl⟩

theorem writeAll_eq (table : Table) (calls : List (WriteCall F)) :
    writeAll cfg table calls = table ++ (calls.filterMap (stored cfg)).map (encodeRow cfg) := by
  induction calls generalizing table with
  | nil => exact (List.append_nil table).symm
  | cons call calls ih =>
      cases hstored : stored cfg call with
      | some r =>
          rw [writeAll, write_stored cfg table hstored, List.filterMap_cons_some hstored]
          exact (ih _).trans (by simp)
      | none =>
          obtain ⟨e, he⟩ := write_unstored cfg table hstored
          rw [writeAll, he, List.filterMap_cons_none hstored]
          exact ih table

/-- The rows that are selected are those of the newest records. -/
theorem selected_rows (calls : List (WriteCall F)) (client code : Option String) :
    ((writeAll cfg [] calls).filter (Row.selected client code)).reverse =
      (newest cfg calls client code).map (encodeRow cfg) := by
  rw [writeAll_eq, List.nil_append, List.filter_map, ← List.map_reverse]
  rfl

theorem newest_stored {calls : List (WriteCall F)} {client code : Option String}
    {r : Row (Value F)} (h : r ∈ newest cfg calls client code) : Stored cfg r := by
  rw [newest, List.mem_reverse, List.mem_filter, List.mem_filterMap] at h
  obtain ⟨⟨call, -, hcall⟩, -⟩ := h
  exact stored_spec cfg hcall

/-! ### Decoding -/

theorem isMark_truncatedMark : IsMark truncatedMark := by
  refine ⟨⟨'…', rfl, by decide⟩, fun c hc => ?_⟩
  have hplain : (truncatedMark.all fun c => c ≠ '"' && c ≠ '\\') = true := rfl
  simpa using List.all_eq_true.mp hplain c hc

theorem record_encodeRow {r : Row (Value F)} (hr : Stored cfg r) (hfits : Row.Fits cfg r) :
    record cfg.text (encodeRow cfg r) = .ok r := by
  have hmessages : (encodeRow cfg r).messages = print (numerals cfg.text) r.messages :=
    if_pos hfits
  rw [record, hmessages, loads_dumps hr.unique hr.dumped]
  rfl

theorem record_truncated {r : Row (Value F)} (hfits : ¬ Row.Fits cfg r) :
    record cfg.text (encodeRow cfg r) = .error (.json .undecodable) := by
  have hmessages : (encodeRow cfg r).messages =
      (print (numerals cfg.text) r.messages).take maxAuditTextChars ++ truncatedMark :=
    if_neg hfits
  rw [record, hmessages, loads, read_append_mark isMark_truncatedMark]

theorem records_encodeRow {rs : List (Row (Value F))} (hrs : ∀ r ∈ rs, Stored cfg r)
    (hfits : ∀ r ∈ rs, Row.Fits cfg r) :
    records cfg.text (rs.map (encodeRow cfg)) = .ok rs := by
  induction rs with
  | nil => rfl
  | cons r rs ih =>
      obtain ⟨hr, hrs⟩ := List.forall_mem_cons.mp hrs
      obtain ⟨hf, hfs⟩ := List.forall_mem_cons.mp hfits
      rw [List.map_cons, records, record_encodeRow cfg hr hf, ih hrs hfs]

theorem records_truncated {rs : List (Row (Value F))} (hrs : ∀ r ∈ rs, Stored cfg r)
    (hfits : ¬ ∀ r ∈ rs, Row.Fits cfg r) :
    ∃ e, records cfg.text (rs.map (encodeRow cfg)) = .error e := by
  induction rs with
  | nil => exact absurd (fun _ h => absurd h List.not_mem_nil) hfits
  | cons r rs ih =>
      obtain ⟨hr, hrs⟩ := List.forall_mem_cons.mp hrs
      by_cases hf : Row.Fits cfg r
      · have hfs : ¬ ∀ r ∈ rs, Row.Fits cfg r := fun h =>
          hfits (List.forall_mem_cons.mpr ⟨hf, h⟩)
        obtain ⟨e, he⟩ := ih hrs hfs
        refine ⟨e, ?_⟩
        rw [List.map_cons, records, record_encodeRow cfg hr hf, he]
      · refine ⟨.json .undecodable, ?_⟩
        rw [List.map_cons, records, record_truncated cfg hf]

/-- How many rows a limit of the endpoint lets through. -/
def reach (limit : ℤ) : ℕ := if 0 ≤ limit then (min limit 1000).toNat else 1000

/-- A search with a limit that SQLite takes, where a negative one has nothing to cut. -/
theorem adminAudit_eq {calls : List (WriteCall F)} {client code : Option String} {limit : ℤ}
    (hlimit : 0 ≤ limit ∨ -2 ^ 63 ≤ limit ∧ (newest cfg calls client code).length ≤ 1000) :
    adminAudit cfg.text (writeAll cfg [] calls) client code limit =
      records cfg.text (((newest cfg calls client code).take (reach limit)).map
        (encodeRow cfg)) := by
  unfold adminAudit search limitRows
  rw [selected_rows]
  rcases lt_or_ge limit 0 with hneg | hpos
  · obtain ⟨hlow, hfew⟩ := hlimit.resolve_left (by omega)
    rw [if_neg (by omega), if_pos (by omega), reach, if_neg (by omega),
      List.take_of_length_le hfew]
  · rw [if_neg (by omega), if_neg (by omega), reach, if_pos hpos, List.map_take]

/-- A negative limit is none: everything that matches is decoded. -/
theorem adminAudit_negative {calls : List (WriteCall F)} {client code : Option String} {limit : ℤ}
    (hlow : -2 ^ 63 ≤ limit) (hneg : limit < 0) :
    adminAudit cfg.text (writeAll cfg [] calls) client code limit =
      records cfg.text ((newest cfg calls client code).map (encodeRow cfg)) := by
  unfold adminAudit search limitRows
  rw [selected_rows, if_neg (by omega), if_pos (by omega)]

theorem adminAudit_mismatch {calls : List (WriteCall F)} {client code : Option String} {limit : ℤ}
    (hlow : limit < -2 ^ 63) :
    adminAudit cfg.text (writeAll cfg [] calls) client code limit = .error .datatypeMismatch := by
  unfold adminAudit search limitRows
  rw [if_pos (by omega)]

/-- What is read back is all that was asked for, and each of it fits. -/
theorem fits_of_records {rs : List (Row (Value F))} (hrs : ∀ r ∈ rs, Stored cfg r)
    {found : List (Row (Value F))} (h : records cfg.text (rs.map (encodeRow cfg)) = .ok found) :
    found = rs ∧ ∀ r ∈ rs, Row.Fits cfg r := by
  by_cases hfits : ∀ r ∈ rs, Row.Fits cfg r
  · rw [records_encodeRow cfg hrs hfits] at h
    exact ⟨(Except.ok.inj h).symm, hfits⟩
  · obtain ⟨e, he⟩ := records_truncated cfg hrs hfits
    rw [he] at h
    cases h

/-- **The log is read back exactly where the limit is one and no text was cut.** -/
theorem audit_read_back (calls : List (WriteCall F)) (client code : Option String) (limit : ℤ) :
    ReadBack cfg calls client code limit ↔
      (0 ≤ limit ∨ -2 ^ 63 ≤ limit ∧ (newest cfg calls client code).length ≤ 1000) ∧
        ∀ r ∈ (newest cfg calls client code).take (reach limit), Row.Fits cfg r := by
  have hstored : ∀ k, ∀ r ∈ (newest cfg calls client code).take k, Stored cfg r := fun _ r hr =>
    newest_stored cfg (List.mem_of_mem_take hr)
  constructor
  · rintro ⟨n, hn, -, hfound⟩
    have hlimit : 0 ≤ limit ∨ -2 ^ 63 ≤ limit ∧ (newest cfg calls client code).length ≤ 1000 := by
      by_contra hno
      rw [not_or] at hno
      obtain ⟨hneg, hmany⟩ := hno
      by_cases hlow : -2 ^ 63 ≤ limit
      · rw [adminAudit_negative cfg hlow (by omega)] at hfound
        have hall := (fits_of_records cfg (fun r hr => newest_stored cfg hr) hfound).1
        have hlength := congrArg List.length hall
        rw [List.length_take] at hlength
        exact hmany ⟨hlow, by omega⟩
      · rw [adminAudit_mismatch cfg (by omega)] at hfound
        cases hfound
    rw [adminAudit_eq cfg hlimit] at hfound
    exact ⟨hlimit, (fits_of_records cfg (hstored _) hfound).2⟩
  · rintro ⟨hlimit, hfits⟩
    refine ⟨reach limit, ?_, ?_, ?_⟩
    · unfold reach
      split_ifs <;> omega
    · intro hpos
      rw [reach, if_pos hpos]
      omega
    · rw [adminAudit_eq cfg hlimit, records_encodeRow cfg (hstored _) hfits]

end Stored

/-! ### A message that is too long -/

/-- A message with nothing but its content. -/
def contentMessage {F : Type} (s : Text) : Message F :=
  ⟨[("content".toList, .str s)], ⟨List.pairwise_singleton _ _, trivial, trivial⟩⟩

def longCall {F : Type} : WriteCall F where
  ts := "2026-09-06T10:00:00+00:00"
  client := "app"
  provider := "local"
  model := "m"
  code := "ok"
  promptTokens := 2000
  completionTokens := 1
  messages := [contentMessage (List.replicate maxAuditTextChars 'a')]
  responseText := []
  usageSource := "upstream"
  requestId := ""

theorem length_escape_pos (c : Char) : 0 < (escape c).length := by
  unfold escape units
  split
  · exact Nat.succ_pos _
  · split_ifs <;> simp [unitEscape]

theorem length_quote (s : Text) : s.length < (quote s).length := by
  have hflat : s.length ≤ (s.flatMap escape).length := by
    induction s with
    | nil => exact Nat.le_refl 0
    | cons c s ih =>
        have hc := length_escape_pos c
        rw [List.flatMap_cons, List.length_append, List.length_cons]
        omega
  simp only [quote, List.length_append, List.length_cons, List.length_nil]
  omega

theorem length_content {F : Type} (text : FloatText F) (s : Text) :
    s.length < (print (numerals text)
      (.arr [.obj [("content".toList, .str s)]])).length := by
  have h := length_quote s
  simp only [print, printItems, printFields, List.length_append, List.length_cons]
  omega

/-- No floats. -/
def noFloats : FloatText Empty := ⟨Empty.elim, fun _ => .nan, nofun, nofun⟩

/-- The one row that was written makes the search raise. -/
theorem long_message_unreadable :
    ¬ ReadBack ⟨false, id, noFloats⟩ [longCall] none none 100 := by
  rintro ⟨n, -, -, hfound⟩
  rw [adminAudit_eq _ (.inl (by decide))] at hfound
  have hfits := (fits_of_records _
    (fun r hr => newest_stored _ (List.mem_of_mem_take hr)) hfound).2
  have hlength := hfits _ (List.mem_singleton_self
    (rowOf ⟨false, id, noFloats⟩ longCall (redactedMessages ⟨false, id, noFloats⟩ longCall)))
  have hcontent := length_content noFloats (List.replicate maxAuditTextChars 'a')
  rw [List.length_replicate] at hcontent
  exact absurd hlength (Nat.not_le.mpr hcontent)

end FirewallLLM.PyAudit
