import FirewallLLM.ChatCompletions
import FirewallLLM.Config

/-! # The audit endpoint

`admin_audit` lets an administrator search the whole audit log, and a client its own rows.  The
table has its rows in the order of insertion, and SQLite evaluates a query as filter, reverse
and take; a column may have a value of any type.  The parameters are the map that is read from
the query string.

`audit_of_own_rows`: what a client gets depends on its own rows only. -/

namespace FirewallLLM

/-- `ApiError::auth`. -/
def ApiError.auth (message code : String) : ApiError :=
  ⟨401, "authentication_error", message, some code, none⟩

namespace AuditSearch

open Dlp (Text)

/-! ### The table -/

inductive SqlValue where
  | null
  | integer (n : Int64)
  | real (digits : String)
  | text (t : String)
  | blob (bytes : List UInt8)
deriving DecidableEq

/-- A row of the table, without its `id`. -/
structure Row where
  ts : SqlValue
  client : SqlValue
  provider : SqlValue
  model : SqlValue
  code : SqlValue
  promptTokens : SqlValue
  completionTokens : SqlValue
  messages : SqlValue
  responseText : SqlValue
  usageSource : SqlValue
  requestId : SqlValue

/-- `AuditRecord`. -/
structure AuditRecord where
  ts : String
  client : String
  provider : String
  model : String
  code : String
  promptTokens : Int64
  completionTokens : Int64
  messages : String
  response : String
  usageSource : String
  requestId : String

/-- `AuditLog`, as far as it is searched; `available` when its lock and its statement can be
had. -/
structure AuditLog where
  available : Bool
  table : List Row

/-- `row.get` of a `String`. -/
def SqlValue.getText : SqlValue → Option String
  | text t => some t
  | _ => none

/-- `row.get` of an `i64`. -/
def SqlValue.getInteger : SqlValue → Option Int64
  | integer n => some n
  | _ => none

/-- `map_row`. -/
def mapRow (row : Row) : Option AuditRecord := do
  pure {
    ts := ← row.ts.getText
    client := ← row.client.getText
    provider := ← row.provider.getText
    model := ← row.model.getText
    code := ← row.code.getText
    promptTokens := ← row.promptTokens.getInteger
    completionTokens := ← row.completionTokens.getInteger
    messages := ← row.messages.getText
    response := ← row.responseText.getText
    usageSource := row.usageSource.getText.getD "upstream"
    requestId := row.requestId.getText.getD "" }

/-! ### Queries -/

/-- The columns that a search compares. -/
inductive Column where
  | client | code

def Row.column (row : Row) : Column → SqlValue
  | .client => row.client
  | .code => row.code

/-- The `WHERE` of the query: columns, each with the number of the parameter that it equals. -/
def whereClause (client code : Bool) : List (Column × ℕ) :=
  match client, code with
  | true, true => [(.client, 1), (.code, 2)]
  | true, false => [(.client, 1)]
  | false, true => [(.code, 1)]
  | false, false => []

/-- The parameters that are bound. -/
def boundParams (client code : Option String) : List String :=
  match client, code with
  | some c, some k => [c, k]
  | some c, none => [c]
  | none, some k => [k]
  | none, none => []

/-- A row meets a condition of the `WHERE`. -/
def meets (bound : List String) (row : Row) (condition : Column × ℕ) : Bool :=
  (bound[condition.2 - 1]?).map .text = some (row.column condition.1)

/-- What SQLite answers; the number of parameters must be that of the query. -/
def runQuery (conditions : List (Column × ℕ)) (limit : ℕ) (bound : List String)
    (table : List Row) : Option (List Row) :=
  if bound.length = conditions.length then
    some (((table.filter (fun row => conditions.all (meets bound row))).reverse).take limit)
  else none

/-- `AuditLog::search`. -/
def search (log : AuditLog) (client code : Option String) (limit : ℕ) : List AuditRecord :=
  if log.available then
    match runQuery (whereClause client.isSome code.isSome) (min (max limit 1) 1000)
        (boundParams client code) log.table with
    | some rows => rows.filterMap mapRow
    | none => []
  else []

/-! ### The endpoint -/

/-- The parts of `AppState` that the endpoint reads. -/
structure AppState where
  clients : List (String × String)
  adminClients : List (String × String)
  audit : Option AuditLog

/-- The token of an `authorization` header. -/
def bearerToken (authorization : Option Text) : String :=
  String.ofList (((authorization.getD []).dropPrefix? "Bearer ".toList).elim [] Core.trim)

/-- `require_client`. -/
def requireClient (state : AppState) (authorization : Option Text) : Except ApiError String :=
  let token := bearerToken authorization
  if token = "" then .error (.auth "missing bearer token" "missing_api_key")
  else match state.clients.lookup token with
    | some label => .ok label
    | none => .error (.auth "invalid API key" "invalid_api_key")

/-- `require_admin`. -/
def requireAdmin (state : AppState) (authorization : Option Text) : Except ApiError String :=
  let token := bearerToken authorization
  if token = "" then .error (.auth "missing bearer token" "missing_api_key")
  else match state.adminClients.lookup token with
    | some label => .ok label
    | none =>
        if (state.clients.lookup token).isSome then
          .error ⟨403, "permission_error", "admin privileges required", some "admin_required",
            none⟩
        else .error (.auth "invalid API key" "invalid_api_key")

/-- `parse` of a `usize`. -/
def parseUsize (s : Text) : Option ℕ :=
  let digits : Text := match s with
    | '+' :: rest => rest
    | s => s
  let n := digits.foldl (fun n c => 10 * n + (c.toNat - '0'.toNat)) 0
  if digits ≠ [] ∧ digits.all Char.isDigit ∧ n < 2 ^ 64 then some n else none

def AuditRecord.toJson (r : AuditRecord) : Json :=
  .obj [("ts", .str r.ts.toList), ("client", .str r.client.toList),
    ("provider", .str r.provider.toList), ("model", .str r.model.toList),
    ("code", .str r.code.toList), ("prompt_tokens", Chat.jsonInt r.promptTokens),
    ("completion_tokens", Chat.jsonInt r.completionTokens), ("messages", .str r.messages.toList),
    ("response_text", .str r.response.toList), ("usage_source", .str r.usageSource.toList),
    ("request_id", .str r.requestId.toList)]

/-- The body of an answer. -/
def auditBody (records : List AuditRecord) : Json :=
  .obj [("total", .num (.posInt records.length.toUInt64)),
    ("records", .arr (records.map AuditRecord.toJson))]

/-- Who is asking: an administrator, or else a client. -/
def caller (state : AppState) (authorization : Option Text) : Except ApiError (String × Bool) :=
  match requireAdmin state authorization with
  | .ok id => .ok (id, true)
  | .error _ => match requireClient state authorization with
      | .ok id => .ok (id, false)
      | .error err => .error err

/-- `admin_audit`. -/
def adminAudit (state : AppState) (authorization : Option Text) (params : String → Option String) :
    ℕ × Json :=
  match caller state authorization with
  | .error err => err.intoResponse
  | .ok (clientId, isAdmin) => match state.audit with
      | none => (200, auditBody [])
      | some audit =>
          let clientFilter := if isAdmin then params "client" else some clientId
          let limit := ((params "limit").bind (fun l => parseUsize l.toList)).getD 100
          (200, auditBody (search audit clientFilter (params "code") limit))

/-! ### What a search finds -/

/-- A row that a search selects: the filters that are set have its client and its code. -/
def Selects (client code : Option String) (row : Row) : Bool :=
  client.all (fun c => row.client = .text c) && code.all (fun k => row.code = .text k)

/-- In each of its four forms the query has its parameters, and selects by them. -/
theorem runQuery_search (client code : Option String) (limit : ℕ) (table : List Row) :
    runQuery (whereClause client.isSome code.isSome) limit (boundParams client code) table =
      some (((table.filter (Selects client code)).reverse).take limit) := by
  have hselects : ∀ row, (whereClause client.isSome code.isSome).all
      (meets (boundParams client code) row) = Selects client code row := by
    intro row
    cases client <;> cases code <;>
      simp [whereClause, boundParams, meets, Selects, Row.column, eq_comm]
  unfold runQuery
  rw [if_pos (by cases client <;> cases code <;> rfl)]
  simp only [hselects]

/-- The last rows that are selected, the newest first, as far as they can be read. -/
theorem search_eq {log : AuditLog} (havailable : log.available = true)
    (client code : Option String) (limit : ℕ) :
    search log client code limit =
      (((log.table.filter (Selects client code)).reverse).take (min (max limit 1) 1000)).filterMap
        mapRow := by
  rw [search, if_pos havailable, runQuery_search]

/-- The rows of a client. -/
def ownRows (label : String) (table : List Row) : List Row :=
  table.filter (fun row => row.client = .text label)

theorem filter_selects (label : String) (code : Option String) (table : List Row) :
    table.filter (Selects (some label) code) =
      (ownRows label table).filter (fun row => code.all (fun k => row.code = .text k)) := by
  rw [ownRows, List.filter_filter]
  refine List.filter_congr (fun row _ => ?_)
  rw [Selects, Option.all_some, Bool.and_comm]

theorem search_congr (available : Bool) {label : String} {table table' : List Row}
    (h : ownRows label table = ownRows label table') (code : Option String) (limit : ℕ) :
    search ⟨available, table⟩ (some label) code limit =
      search ⟨available, table'⟩ (some label) code limit := by
  cases available with
  | false => rfl
  | true => rw [search_eq rfl, search_eq rfl, filter_selects, filter_selects, h]

/-! ### What a client gets -/

theorem caller_client {state : AppState} {authorization : Option Text} {label : String}
    (hclient : state.clients.lookup (bearerToken authorization) = some label)
    (hadmin : state.adminClients.lookup (bearerToken authorization) = none) :
    caller state authorization = .ok (label, false) ∨
      caller state authorization =
        .error (.auth "missing bearer token" "missing_api_key") := by
  unfold caller requireAdmin requireClient
  simp only [hclient, hadmin, Option.isSome_some, if_true]
  split_ifs
  · exact Or.inr rfl
  · exact Or.inl rfl

/-- The state with another table in its audit log. -/
def AppState.withTable (state : AppState) (table : List Row) : AppState :=
  { state with audit := state.audit.map (fun log => { log with table }) }

/-- **A client learns nothing of the others from the audit endpoint**: where two tables have the
same rows of the client, it gets the same answer. -/
theorem audit_of_own_rows {state : AppState} {authorization : Option Text} {label : String}
    (hclient : state.clients.lookup (bearerToken authorization) = some label)
    (hadmin : state.adminClients.lookup (bearerToken authorization) = none)
    (params : String → Option String) {table table' : List Row}
    (h : ownRows label table = ownRows label table') :
    adminAudit (state.withTable table) authorization params =
      adminAudit (state.withTable table') authorization params := by
  have hcaller : ∀ t, caller (state.withTable t) authorization = caller state authorization :=
    fun _ => rfl
  unfold adminAudit
  rw [hcaller, hcaller]
  rcases caller_client hclient hadmin with heq | heq
  · rw [heq]
    dsimp only [AppState.withTable]
    cases state.audit with
    | none => rfl
    | some log =>
        simp only [Option.map_some, Bool.false_eq_true, if_false]
        rw [search_congr log.available h]
  · rw [heq]

/-- The row of another client makes no difference, even when it is asked for. -/
theorem stranger_unseen :
    adminAudit (AppState.withTable ⟨[("tok", "alice")], [("root", "admin")], some ⟨true, []⟩⟩
        [⟨.text "t", .text "bob", .text "p", .text "m", .text "200", .integer 5, .integer 7,
          .text "[]", .text "", .text "upstream", .text "r1"⟩])
        (some "Bearer tok".toList) (fun key => if key = "client" then some "bob" else none) =
      adminAudit (AppState.withTable ⟨[("tok", "alice")], [("root", "admin")], some ⟨true, []⟩⟩ [])
        (some "Bearer tok".toList) (fun key => if key = "client" then some "bob" else none) :=
  @audit_of_own_rows _ _ "alice" rfl rfl _ _ _ rfl

end AuditSearch

end FirewallLLM
