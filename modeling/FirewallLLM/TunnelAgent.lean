import FirewallLLM.HeaderMasking

/-! # The agent of a tunnel

`serve_once` of the agent for one text frame, and its `forward`: the frame is read, its headers
are masked, the request is sent on, and the reply carries the id of the frame.  What the upstream
answers comes with the frame; the `http` crate, the methods that `reqwest` knows and the two
functions of `serde_json` are parameters.

`serve_requestFrame`: what the agent does with the frame of a request. -/

namespace FirewallLLM.Tunnel

open Dlp (Text)

namespace Agent

/-- The request that is sent on. -/
structure HttpRequest where
  method : Text
  url : Text
  headers : List (String × Text)
  body : Option Text
deriving DecidableEq

/-- The response to it; a header whose value is no text and a body that cannot be read have
none. -/
structure HttpResponse where
  status : UInt16
  headers : List (String × Option Text)
  body : Option Text
deriving DecidableEq

/-- `ForwardResp`. -/
structure ForwardResp where
  status : UInt16
  headers : List (String × Text)
  body : Text
deriving DecidableEq

/-- `collect` into a map: of the headers with one name the last one counts. -/
def collectHeaders (headers : List (String × Text)) : List (String × Text) :=
  headers.foldl (fun map h => map.filter (fun e => e.1 ≠ h.1) ++ [h]) []

/-- `forward` up to the request that is sent. -/
def prepare (isMethod : Text → Bool) (method url : Text) (frame : Json) :
    Except ForwardResp HttpRequest :=
  if url = [] then .error ⟨502, [], "missing url".toList⟩
  else if !isMethod method then .error ⟨400, [], "invalid method".toList⟩
  else .ok
    { method
      url
      headers := (((frame.get? "headers").bind Json.asObj?).getD []).filterMap
        (fun h => h.2.asStr?.map (fun s => (h.1, s)))
      body := ((frame.get? "body").bind Json.asStr?).filter (· ≠ []) }

/-- `forward` from there on. -/
def respond : Except Text HttpResponse → ForwardResp
  | .ok resp =>
      { status := resp.status
        headers := collectHeaders (resp.headers.map (fun h => (h.1, h.2.getD [])))
        body := resp.body.getD [] }
  | .error e => ⟨502, [], e⟩

/-- The reply. -/
def replyFrame (id : Json) (resp : ForwardResp) : Json :=
  .obj [("id", id), ("status", .num (.posInt resp.status.toUInt64)),
    ("headers", .obj (resp.headers.map (fun h => (h.1, .str h.2)))), ("body", .str resp.body)]

theorem replyFrame_injective (id : Json) : Function.Injective (replyFrame id) := by
  intro resp resp' h
  obtain ⟨status, headers, body⟩ := resp
  obtain ⟨status', headers', body'⟩ := resp'
  simp only [replyFrame, Json.obj.injEq, List.cons.injEq, Prod.mk.injEq, true_and, and_true,
    Json.num.injEq, Number.posInt.injEq, Json.str.injEq, UInt16.toUInt64_inj] at h
  obtain ⟨rfl, hheaders, rfl⟩ := h
  have hinj : Function.Injective (fun h : String × Text => (h.1, Json.str h.2)) := by
    intro a b hab
    simp only [Prod.mk.injEq, Json.str.injEq] at hab
    exact Prod.ext hab.1 hab.2
  rw [List.map_injective_iff.mpr hinj hheaders]

/-- What becomes of a text. -/
inductive Outcome where
  | skipped
  | panicked
  | refused (id : Json) (resp : ForwardResp)
  | called (id : Json) (request : HttpRequest) (answer : Except Text HttpResponse)

/-- The reply to a text. -/
def Outcome.reply? : Outcome → Option Json
  | .refused id resp => some (replyFrame id resp)
  | .called id _ answer => some (replyFrame id (respond answer))
  | _ => none

section Serve

variable {Name Value Map : Type} (http : HttpCrate Name Value Map) (isMethod : Text → Bool)
  (fromStr : Text → Option Json)

/-- The frame with masked headers. -/
def maskFrame (frame : Json) : Option Json :=
  match (frame.get? "headers").bind Json.asObj? with
  | some map => (http.serveHeaders map).map (fun map => frame.set "headers" (.obj map))
  | none => some frame

/-- One text in the loop of `serve_once`; `answer` is what the upstream says if it is asked. -/
def serve (text : Text) (answer : Except Text HttpResponse) : Outcome :=
  match (fromStr text).filter (fun frame => frame.asObj?.isSome) with
  | none => .skipped
  | some frame => match maskFrame http frame with
      | none => .panicked
      | some frame =>
          let url := ((frame.get? "url").bind Json.asStr?).getD []
          let method := ((frame.get? "method").bind Json.asStr?).getD "GET".toList
          let id := (frame.get? "id").getD (.str ['0'])
          match prepare isMethod method url frame with
          | .error resp => .refused id resp
          | .ok request => .called id request answer

end Serve

/-! ### A frame that is read -/

/-- The other text is read as an object with the same fields; the headers may be in another
order. -/
structure Alike (frame read : Json) : Prop where
  object : read.asObj?.isSome
  field : ∀ key, key ≠ "headers" → read.get? key = frame.get? key
  headers : ∀ fields, frame.get? "headers" = some (.obj fields) →
    ∃ fields', read.get? "headers" = some (.obj fields') ∧ fields'.Perm fields

/-- What the agent needs of a request: its headers have valid names, which differ in more than
the letter case, and visible values. -/
structure Sendable {Name Value Map : Type} (http : HttpCrate Name Value Map)
    (r : ProxyRequest) : Prop where
  names : ∀ h ∈ r.headers, (http.parseName h.1).isSome
  values : ∀ h ∈ r.headers, Visible h.2
  nodup : (r.headers.map (fun h => asciiLower h.1)).Nodup

/-- The request that goes to the upstream is the one that was forwarded, with the names of its
headers in lower case. -/
structure Carries (r : ProxyRequest) (request : HttpRequest) : Prop where
  method : request.method = r.method
  url : request.url = r.url
  headers : request.headers.Perm (r.headers.map (fun h => (asciiLower h.1, h.2)))
  body : request.body = r.body.filter (· ≠ [])

/-- What the agent makes of a request: it sends it on, or it has no address or no method. -/
def Serves (isMethod : Text → Bool) (r : ProxyRequest) (answer : Except Text HttpResponse) :
    Outcome → Prop
  | .called id request answer' =>
      id = .str r.id ∧ Carries r request ∧ answer' = answer ∧ r.url ≠ [] ∧ isMethod r.method = true
  | .refused id resp => id = .str r.id ∧
      (r.url = [] ∧ resp = ⟨502, [], "missing url".toList⟩ ∨
        r.url ≠ [] ∧ isMethod r.method = false ∧ resp = ⟨400, [], "invalid method".toList⟩)
  | _ => False

section Frames

variable {Name Value Map : Type} {http : HttpCrate Name Value Map} {isMethod : Text → Bool}
  {fromStr : Text → Option Json} {r : ProxyRequest} {read : Json}

/-- Headers that are read in another order are those of the request in another order. -/
theorem exists_perm_of_fields {headers : List (String × Text)} {fields : List (String × Json)}
    (h : fields.Perm (headers.map (fun h => (h.1, Json.str h.2)))) :
    ∃ headers' : List (String × Text), headers'.Perm headers ∧
      fields = headers'.map (fun h => (h.1, Json.str h.2)) := by
  refine ⟨fields.map (fun e => (e.1, e.2.asStr?.getD [])), ?_, ?_⟩
  · refine (h.map _).trans (List.Perm.of_eq ?_)
    rw [List.map_map]
    exact List.map_id _
  · rw [List.map_map]
    refine (List.map_id fields).symm.trans (List.map_congr_left fun e he => ?_)
    obtain ⟨g, -, rfl⟩ := List.mem_map.mp (h.mem_iff.mp he)
    rfl

/-- The agent masks the frame of a request: its headers lose their capital letters only. -/
theorem maskFrame_requestFrame (hhttp : http.Lawful) (hr : Sendable http r)
    (hmasked : ∃ headers, r.headers = maskForTunnel headers)
    (hread : Alike (requestFrame r) read) :
    ∃ out, maskFrame http read = some (read.set "headers" (.obj out)) ∧
      out.Perm (r.headers.map (fun h => (asciiLower h.1, Json.str h.2))) := by
  obtain ⟨fields, hfields, hperm⟩ := hread.headers _ rfl
  obtain ⟨headers, hheaders, rfl⟩ := exists_perm_of_fields hperm
  obtain ⟨headers₀, hmasked⟩ := hmasked
  have hmem : ∀ h ∈ headers, h ∈ r.headers := fun h hh => hheaders.mem_iff.mp hh
  obtain ⟨out, hserve, hout⟩ := HttpCrate.Lawful.serveHeaders_perm hhttp
    (fun h hh => hr.names h (hmem h hh)) (fun h hh => hr.values h (hmem h hh))
    ((hheaders.map _).nodup_iff.mpr hr.nodup)
    (fun h hh => isHop_of_mem_maskForTunnel (hmasked ▸ hmem h hh)) (by
      rw [hheaders.any_eq, hmasked]
      exact any_userAgent_maskForTunnel headers₀)
  refine ⟨out, ?_, hout.trans (hheaders.map _)⟩
  unfold maskFrame
  rw [hfields, Option.bind_some]
  dsimp only [Json.asObj?]
  rw [hserve]
  rfl

theorem get?_masked (hread : Alike (requestFrame r) read) {key : String} (hkey : key ≠ "headers")
    (out : List (String × Json)) :
    (read.set "headers" (.obj out)).get? key = (requestFrame r).get? key := by
  rw [Json.get?_set_of_ne hkey, hread.field key hkey]

theorem carries_prepare (hread : Alike (requestFrame r) read) {out : List (String × Json)}
    (hout : out.Perm (r.headers.map (fun h => (asciiLower h.1, Json.str h.2))))
    {request : HttpRequest}
    (h : prepare isMethod r.method r.url (read.set "headers" (.obj out)) = .ok request) :
    Carries r request := by
  unfold prepare at h
  split_ifs at h
  obtain rfl := Except.ok.inj h
  obtain ⟨fields, hfields, -⟩ := hread.headers _ rfl
  refine ⟨rfl, rfl, ?_, ?_⟩
  · simp only [Json.get?_set_self hfields, Option.bind_some, Json.asObj?, Option.getD_some]
    refine (hout.filterMap _).trans (List.Perm.of_eq ?_)
    rw [List.filterMap_map, ← List.filterMap_eq_map]
    rfl
  · have hbody : ((requestFrame r).get? "body").bind Json.asStr? = r.body := by
      change ((r.body.map Json.str).getD .null).asStr? = r.body
      cases r.body <;> rfl
    dsimp only
    rw [get?_masked hread (by decide), hbody]

/-- **What the agent does with the frame of a request.** -/
theorem serve_requestFrame (hhttp : http.Lawful) (hr : Sendable http r)
    (hmasked : ∃ headers, r.headers = maskForTunnel headers) {text : Text}
    (htext : fromStr text = some read) (hread : Alike (requestFrame r) read)
    (answer : Except Text HttpResponse) :
    Serves isMethod r answer (serve http isMethod fromStr text answer) := by
  obtain ⟨out, hmask, hout⟩ := maskFrame_requestFrame hhttp hr hmasked hread
  have hfilter : (fromStr text).filter (fun frame => frame.asObj?.isSome) = some read := by
    rw [htext, Option.filter_some, if_pos hread.object]
  have hurl : ((read.set "headers" (.obj out)).get? "url").bind Json.asStr? = some r.url := by
    rw [get?_masked hread (by decide)]
    rfl
  have hmethod : ((read.set "headers" (.obj out)).get? "method").bind Json.asStr? =
      some r.method := by
    rw [get?_masked hread (by decide)]
    rfl
  have hid : (read.set "headers" (.obj out)).get? "id" = some (.str r.id) := by
    rw [get?_masked hread (by decide)]
    rfl
  unfold serve
  rw [hfilter]
  dsimp only
  rw [hmask]
  dsimp only
  rw [hurl, hmethod, hid]
  simp only [Option.getD_some]
  cases hprepare : prepare isMethod r.method r.url (read.set "headers" (.obj out)) with
  | ok request =>
      have hcarries := carries_prepare hread hout hprepare
      unfold prepare at hprepare
      split_ifs at hprepare with hempty hno
      exact ⟨rfl, hcarries, rfl, hempty, by simpa using hno⟩
  | error resp =>
      unfold prepare at hprepare
      split_ifs at hprepare with hempty hno
      · exact ⟨rfl, .inl ⟨hempty, (Except.error.inj hprepare).symm⟩⟩
      · exact ⟨rfl, .inr ⟨hempty, by simpa using hno, (Except.error.inj hprepare).symm⟩⟩

/-- The response of the agent, as the gateway returns it. -/
structure Returns (resp : ForwardResp) (response : ProxyResponse) : Prop where
  status : response.status = resp.status
  headers : response.headers.Perm resp.headers
  body : response.body = resp.body

theorem returns_readResponse {id : Text} {resp : ForwardResp}
    (hread : Alike (replyFrame (.str id) resp) read) :
    frameId? read = some id ∧ Returns resp (readResponse read) := by
  have hid : frameId? read = some id := by
    rw [frameId?, hread.field "id" (by decide)]
    rfl
  obtain ⟨fields, hfields, hperm⟩ := hread.headers _ rfl
  refine ⟨hid, ?_, ?_, ?_⟩
  · simp only [readResponse]
    rw [hread.field "status" (by decide)]
    change resp.status.toUInt64.toUInt16 = resp.status
    exact UInt16.toUInt16_toUInt64 resp.status
  · simp only [readResponse, hfields, Option.bind_some, Json.asObj?, Option.map_some,
      Option.getD_some]
    refine (hperm.map _).trans (List.Perm.of_eq ?_)
    rw [List.map_map]
    exact List.map_id _
  · simp only [readResponse]
    rw [hread.field "body" (by decide)]
    rfl

end Frames

end Agent

end FirewallLLM.Tunnel
