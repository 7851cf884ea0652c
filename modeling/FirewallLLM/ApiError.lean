import FirewallLLM.Json

/-! # API errors

The errors of `error.rs`, and the body they become. -/

namespace FirewallLLM

/-- `ApiError`. -/
structure ApiError where
  status : ℕ
  kind : String
  message : String
  code : Option String
  details : Option Json

namespace ApiError

def blocked (message reason : String) : ApiError :=
  ⟨403, "permission_error", message, some "blocked_by_inspector",
    some (.obj [("reason", .str reason.toList)])⟩

def rateLimited (message : String) : ApiError := ⟨429, "rate_limit_error", message, none, none⟩

def upstream (message : String) : ApiError := ⟨502, "upstream_error", message, none, none⟩

def invalidRequest (message : String) : ApiError :=
  ⟨422, "invalid_request_error", message, some "invalid_body", none⟩

/-- The answer when the metering backend cannot be reached. -/
def backendUnavailable (msg : String) : ApiError :=
  ⟨503, "rate_limit_error", s!"metering backend unavailable: {msg}", some "backend_unavailable",
    none⟩

/-- `into_response`: the status and the body. -/
def intoResponse (err : ApiError) : ℕ × Json :=
  (err.status, .obj [("error", .obj
    ([("message", .str err.message.toList), ("type", .str err.kind.toList)] ++
      (err.code.map (fun code => ("code", Json.str code.toList))).toList ++
      (err.details.map (fun details => ("details", details))).toList))])

end ApiError

end FirewallLLM
