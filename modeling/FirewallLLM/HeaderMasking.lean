import FirewallLLM.TunnelLoop

/-! # Masked headers at both ends of a tunnel

`mask_for_tunnel` of the gateway works on names as they are written, `mask_headers` of the agent
on the header map of the `http` crate, which is a parameter: its names are kept in lower case.

`header_masking`: the gateway removes exactly the hop headers, in every letter case, and its
result is one at which the agent changes nothing but the letter case of the names. -/

namespace FirewallLLM.Tunnel

open Dlp (Text)

/-! ### The gateway -/

/-- The name is that of a hop header, in some letter case. -/
def isHop (name : String) : Bool := toRemove.contains (asciiLower name)

/-- The name is `user-agent`, in some letter case. -/
def isUserAgent (name : String) : Bool := asciiLower name = "user-agent"

/-- The header that is added when there is no user agent. -/
def agentHeader : String × Text := ("User-Agent", "Firewall-LLM-Agent/0.1".toList)

theorem isHop_eq_false {name : String} : isHop name = false ↔ asciiLower name ∉ toRemove := by
  rw [isHop, ← Bool.not_eq_true, List.contains_iff_mem]

theorem keeps_eq {key : String} (hkey : key ∈ toRemove) (h : String × Text) :
    keeps key h = decide (asciiLower h.1 ≠ key) := by
  have hall : ∀ k ∈ toRemove, asciiLower k = k ∧ asciiLower (asciiUpper k) = k := by decide
  obtain ⟨hlower, hupper⟩ := hall key hkey
  unfold keeps
  by_cases hname : asciiLower h.1 = key
  · simp [hname]
  · have hexact : h.1 ≠ key := fun heq => hname (by rw [heq, hlower])
    have hcapital : h.1 ≠ asciiUpper key := fun heq => hname (by rw [heq, hupper])
    simp [hname, hexact, hcapital]

theorem foldl_filter_eq {α β : Type} (p : α → β → Bool) (keys : List α) (l : List β) :
    keys.foldl (fun l key => l.filter (p key)) l =
      l.filter (fun b => keys.all (fun key => p key b)) := by
  induction keys generalizing l with
  | nil => simp
  | cons key keys ih =>
      rw [List.foldl_cons, ih, List.filter_filter]
      simp only [List.all_cons, Bool.and_comm]

theorem kept_eq (headers : List (String × Text)) :
    toRemove.foldl (fun hs key => hs.filter (keeps key)) headers =
      headers.filter (fun h => !isHop h.1) := by
  rw [foldl_filter_eq]
  apply List.filter_congr
  intro h _
  rw [Bool.eq_iff_iff, List.all_eq_true, Bool.not_eq_true', isHop_eq_false]
  constructor
  · intro hall hmem
    have hkeeps := hall _ hmem
    rw [keeps_eq hmem] at hkeeps
    simp at hkeeps
  · intro hnot key hkey
    rw [keeps_eq hkey, decide_eq_true_eq]
    rintro rfl
    exact hnot hkey

/-- The user agent is no hop header. -/
theorem any_userAgent_kept (headers : List (String × Text)) :
    (headers.filter (fun h => !isHop h.1)).any (fun h => isUserAgent h.1) =
      headers.any (fun h => isUserAgent h.1) := by
  rw [List.any_filter]
  congr 1
  funext h
  cases hua : isUserAgent h.1 with
  | false => exact Bool.and_false _
  | true =>
      have hname : asciiLower h.1 = "user-agent" := of_decide_eq_true hua
      have hno : isHop h.1 = false := by
        rw [isHop, hname]
        decide
      rw [hno]
      rfl

theorem maskForTunnel_eq (headers : List (String × Text)) :
    maskForTunnel headers = headers.filter (fun h => !isHop h.1) ++
      (if headers.any (fun h => isUserAgent h.1) then [] else [agentHeader]) := by
  have hany := any_userAgent_kept headers
  unfold maskForTunnel
  dsimp only
  rw [kept_eq]
  change (if (headers.filter (fun h => !isHop h.1)).any (fun h => isUserAgent h.1) then _ else _) = _
  rw [hany]
  split_ifs
  · exact (List.append_nil _).symm
  · rfl

theorem any_userAgent_maskForTunnel (headers : List (String × Text)) :
    (maskForTunnel headers).any (fun h => isUserAgent h.1) = true := by
  rw [maskForTunnel_eq, List.any_append, any_userAgent_kept]
  cases headers.any (fun h => isUserAgent h.1) with
  | true => rfl
  | false => decide

theorem isHop_of_mem_maskForTunnel {headers : List (String × Text)} {h : String × Text}
    (hh : h ∈ maskForTunnel headers) : isHop h.1 = false :=
  isHop_eq_false.mpr (maskForTunnel_removed headers h hh)

theorem maskForTunnel_idem (headers : List (String × Text)) :
    maskForTunnel (maskForTunnel headers) = maskForTunnel headers := by
  rw [maskForTunnel_eq (maskForTunnel headers), if_pos (any_userAgent_maskForTunnel headers),
    List.append_nil]
  exact List.filter_eq_self.mpr fun h hh => by rw [isHop_of_mem_maskForTunnel hh]; rfl

/-! ### The agent -/

/-- What the agent uses of the `http` crate. -/
structure HttpCrate (Name Value Map : Type) where
  parseName : String → Option Name
  nameText : Name → String
  parseValue : Text → Option Value
  toStr : Value → Option Text
  userAgent : Name
  empty : Map
  insert : Map → Name → Value → Map
  remove : Map → String → Map
  containsKey : Map → String → Bool
  iter : Map → List (Name × Value)

/-- The characters that `HeaderValue` reads and shows. -/
def Visible (v : Text) : Prop := ∀ c ∈ v, 32 ≤ c.toNat ∧ c.toNat < 127

/-- Names are kept in lower case and found in every letter case; the map has one entry for each
name. -/
structure HttpCrate.Lawful {Name Value Map : Type} (http : HttpCrate Name Value Map) : Prop where
  nameText_parse : ∀ {s n}, http.parseName s = some n → http.nameText n = asciiLower s
  parse_token : ∀ s : String, s ≠ "" → s.length < 65536 →
    (∀ c ∈ s.toList, c.isAlphanum = true ∨ c = '-') → (http.parseName s).isSome
  parse_visible : ∀ {v}, Visible v → ∃ x, http.parseValue v = some x ∧ http.toStr x = some v
  userAgent_text : http.nameText http.userAgent = "user-agent"
  iter_empty : http.iter http.empty = []
  iter_insert : ∀ m n v, (http.iter (http.insert m n v)).Perm
    ((n, v) :: (http.iter m).filter (fun e => http.nameText e.1 ≠ http.nameText n))
  iter_remove : ∀ m s, (http.parseName s).isSome →
    (http.iter (http.remove m s)).Perm
      ((http.iter m).filter (fun e => http.nameText e.1 ≠ asciiLower s))
  containsKey_iff : ∀ m s, (http.parseName s).isSome →
    (http.containsKey m s = true ↔ ∃ e ∈ http.iter m, http.nameText e.1 = asciiLower s)

namespace HttpCrate

variable {Name Value Map : Type} (http : HttpCrate Name Value Map)

/-- The names in `mask_headers`. -/
def hopNames : List String :=
  ["via", "x-forwarded-for", "x-forwarded-proto", "x-forwarded-host", "x-real-ip",
    "x-forwarded-port", "cf-connecting-ip", "cf-ray", "server", "x-powered-by"]

/-- `mask_headers`; there is no result when the value of the user agent is not one. -/
def maskHeaders (headers : Map) : Option Map :=
  let headers := hopNames.foldl http.remove headers
  if http.containsKey headers "user-agent" then some headers
  else (http.parseValue "Firewall-LLM-Agent/0.1".toList).map
    (http.insert headers http.userAgent)

/-- One header of a frame: what is no name or no value is left out. -/
def readHeader (hm : Map) (e : String × Json) : Map :=
  match http.parseName e.1, http.parseValue (e.2.asStr?.getD []) with
  | some name, some val => http.insert hm name val
  | _, _ => hm

/-- The headers that go back into the frame. -/
def writeHeaders (hm : Map) : List (String × Json) :=
  (http.iter hm).map (fun e => (http.nameText e.1, .str ((http.toStr e.2).getD [])))

/-- What `serve_once` makes of the headers of a frame. -/
def serveHeaders (map : List (String × Json)) : Option (List (String × Json)) :=
  (http.maskHeaders (map.foldl http.readHeader http.empty)).map http.writeHeaders

end HttpCrate

namespace HttpCrate.Lawful

variable {Name Value Map : Type} {http : HttpCrate Name Value Map}

/-- A header as a frame carries it, and as the agent sends it on. -/
def lowered (h : String × Text) : String × Json := (asciiLower h.1, .str h.2)

theorem map_fst_writeHeaders (http : HttpCrate Name Value Map) (m : Map) :
    (http.writeHeaders m).map Prod.fst = (http.iter m).map (fun e => http.nameText e.1) := by
  rw [writeHeaders, List.map_map]
  rfl

theorem filter_of_not_mem {m : Map} {name : String}
    (h : name ∉ (http.writeHeaders m).map Prod.fst) :
    (http.iter m).filter (fun e => http.nameText e.1 ≠ name) = http.iter m := by
  rw [map_fst_writeHeaders] at h
  apply List.filter_eq_self.mpr
  intro e he
  rw [decide_eq_true_eq]
  rintro rfl
  exact h (List.mem_map_of_mem he)

theorem readHeader_perm (hhttp : http.Lawful) {m : Map} {h : String × Text}
    (hname : (http.parseName h.1).isSome) (hvalue : Visible h.2)
    (hnew : asciiLower h.1 ∉ (http.writeHeaders m).map Prod.fst) :
    (http.writeHeaders (http.readHeader m (h.1, .str h.2))).Perm
      (lowered h :: http.writeHeaders m) := by
  obtain ⟨name, hparse⟩ := Option.isSome_iff_exists.mp hname
  obtain ⟨val, hval, hshow⟩ := hhttp.parse_visible hvalue
  have htext := hhttp.nameText_parse hparse
  have hread : http.readHeader m (h.1, .str h.2) = http.insert m name val := by
    unfold readHeader
    dsimp only [Json.asStr?, Option.getD]
    rw [hparse, hval]
  have hperm := hhttp.iter_insert m name val
  rw [htext, filter_of_not_mem hnew] at hperm
  rw [hread]
  refine (hperm.map _).trans (List.Perm.of_eq ?_)
  rw [List.map_cons, htext, hshow]
  rfl

theorem readHeaders_perm (hhttp : http.Lawful) {headers : List (String × Text)} {m : Map}
    (hnames : ∀ h ∈ headers, (http.parseName h.1).isSome)
    (hvalues : ∀ h ∈ headers, Visible h.2)
    (hnodup : (headers.map (fun h => asciiLower h.1)).Nodup)
    (hnew : ∀ h ∈ headers, asciiLower h.1 ∉ (http.writeHeaders m).map Prod.fst) :
    (http.writeHeaders ((headers.map (fun h => (h.1, Json.str h.2))).foldl http.readHeader m)).Perm
      (headers.map lowered ++ http.writeHeaders m) := by
  induction headers generalizing m with
  | nil => exact List.Perm.refl _
  | cons h headers ih =>
      rw [List.map_cons, List.nodup_cons] at hnodup
      have hfirst := readHeader_perm hhttp (hnames h List.mem_cons_self)
        (hvalues h List.mem_cons_self) (hnew h List.mem_cons_self)
      have hrest := ih (m := http.readHeader m (h.1, .str h.2))
        (fun g hg => hnames g (List.mem_cons_of_mem h hg))
        (fun g hg => hvalues g (List.mem_cons_of_mem h hg)) hnodup.2 (by
          intro g hg hmem
          have hmem' := (hfirst.map Prod.fst).mem_iff.mp hmem
          rw [List.map_cons] at hmem'
          rcases List.mem_cons.mp hmem' with heq | hmem'
          · exact hnodup.1 (List.mem_map.mpr ⟨g, hg, heq⟩)
          · exact hnew g (List.mem_cons_of_mem h hg) hmem')
      refine hrest.trans ((hfirst.append_left _).trans ?_)
      exact List.perm_middle

theorem removeAll_perm (hhttp : http.Lawful) {names : List String} {m : Map}
    (hvalid : ∀ s ∈ names, (http.parseName s).isSome)
    (hno : ∀ s ∈ names, asciiLower s ∉ (http.writeHeaders m).map Prod.fst) :
    (http.writeHeaders (names.foldl http.remove m)).Perm (http.writeHeaders m) := by
  induction names generalizing m with
  | nil => exact List.Perm.refl _
  | cons s names ih =>
      have hremove := hhttp.iter_remove m s (hvalid s List.mem_cons_self)
      rw [filter_of_not_mem (hno s List.mem_cons_self)] at hremove
      have hsame : (http.writeHeaders (http.remove m s)).Perm (http.writeHeaders m) :=
        hremove.map _
      refine (ih (m := http.remove m s) (fun t ht => hvalid t (List.mem_cons_of_mem s ht)) ?_).trans
        hsame
      intro t ht hmem
      exact hno t (List.mem_cons_of_mem s ht) ((hsame.map Prod.fst).mem_iff.mp hmem)

theorem hopNames_valid (hhttp : http.Lawful) : ∀ s ∈ hopNames, (http.parseName s).isSome := by
  have htoken : ∀ s ∈ hopNames, s ≠ "" ∧ s.length < 65536 ∧
      s.toList.all (fun c => c.isAlphanum || c = '-') = true := by decide
  intro s hs
  obtain ⟨hne, hlen, hchars⟩ := htoken s hs
  exact hhttp.parse_token s hne hlen fun c hc => by
    simpa using List.all_eq_true.mp hchars c hc

theorem agentHeader_valid (hhttp : http.Lawful) : (http.parseName agentHeader.1).isSome := by
  have hchars : agentHeader.1.toList.all (fun c => c.isAlphanum || c = '-') = true := by decide
  exact hhttp.parse_token _ (by decide) (by decide) fun c hc => by
    simpa using List.all_eq_true.mp hchars c hc

theorem userAgent_valid (hhttp : http.Lawful) : (http.parseName "user-agent").isSome := by
  have hchars : "user-agent".toList.all (fun c => c.isAlphanum || c = '-') = true := by decide
  exact hhttp.parse_token _ (by decide) (by decide) fun c hc => by
    simpa using List.all_eq_true.mp hchars c hc

/-- Headers without hop headers and with a user agent only lose their capital letters. -/
theorem serveHeaders_perm (hhttp : http.Lawful) {headers : List (String × Text)}
    (hnames : ∀ h ∈ headers, (http.parseName h.1).isSome)
    (hvalues : ∀ h ∈ headers, Visible h.2)
    (hnodup : (headers.map (fun h => asciiLower h.1)).Nodup)
    (hhop : ∀ h ∈ headers, isHop h.1 = false)
    (hagent : headers.any (fun h => isUserAgent h.1) = true) :
    ∃ out, http.serveHeaders (headers.map (fun h => (h.1, Json.str h.2))) = some out ∧
      out.Perm (headers.map lowered) := by
  have hempty : http.writeHeaders http.empty = [] := by
    rw [writeHeaders, hhttp.iter_empty]
    rfl
  have hread := readHeaders_perm hhttp (m := http.empty) hnames hvalues hnodup (by
    intro h _
    rw [hempty]
    exact List.not_mem_nil)
  rw [hempty, List.append_nil] at hread
  unfold serveHeaders
  generalize (headers.map (fun h => (h.1, Json.str h.2))).foldl http.readHeader http.empty = m
    at hread ⊢
  have hinUse : ∀ name, name ∈ (http.writeHeaders m).map Prod.fst ↔
      ∃ h ∈ headers, asciiLower h.1 = name := by
    intro name
    rw [(hread.map Prod.fst).mem_iff, List.map_map, List.mem_map]
    rfl
  have hremoved : (http.writeHeaders (hopNames.foldl http.remove m)).Perm
      (http.writeHeaders m) := by
    refine removeAll_perm hhttp hhttp.hopNames_valid fun s hs hmem => ?_
    obtain ⟨h, hh, hlower⟩ := (hinUse _).mp hmem
    have hsame : ∀ t ∈ hopNames, asciiLower t = t := by decide
    rw [hsame s hs] at hlower
    exact isHop_eq_false.mp (hhop h hh) (by rw [hlower]; exact hs)
  have hcontains : http.containsKey (hopNames.foldl http.remove m) "user-agent" = true := by
    obtain ⟨h, hh, hua⟩ := List.any_eq_true.mp hagent
    have hmem : "user-agent" ∈ (http.writeHeaders (hopNames.foldl http.remove m)).map Prod.fst :=
      (hremoved.map Prod.fst).mem_iff.mpr ((hinUse _).mpr ⟨h, hh, of_decide_eq_true hua⟩)
    rw [map_fst_writeHeaders] at hmem
    obtain ⟨e, he, hname⟩ := List.mem_map.mp hmem
    have hlower : asciiLower "user-agent" = "user-agent" := by decide
    rw [hhttp.containsKey_iff _ _ hhttp.userAgent_valid, hlower]
    exact ⟨e, he, hname⟩
  refine ⟨http.writeHeaders (hopNames.foldl http.remove m), ?_, hremoved.trans hread⟩
  unfold maskHeaders
  dsimp only
  rw [if_pos hcontains]
  rfl

/-! ### Both ends -/

theorem mem_maskForTunnel {headers : List (String × Text)} {h : String × Text}
    (hh : h ∈ maskForTunnel headers) : h ∈ headers ∨ h = agentHeader := by
  rw [maskForTunnel_eq] at hh
  rcases List.mem_append.mp hh with hh | hh
  · exact .inl (List.mem_of_mem_filter hh)
  · split_ifs at hh
    · cases hh
    · exact .inr (List.mem_singleton.mp hh)

theorem nodup_maskForTunnel {headers : List (String × Text)}
    (h : (headers.map (fun h => asciiLower h.1)).Nodup) :
    ((maskForTunnel headers).map (fun h => asciiLower h.1)).Nodup := by
  have hkept : ((headers.filter (fun h => !isHop h.1)).map (fun h => asciiLower h.1)).Nodup :=
    h.sublist (List.filter_sublist.map _)
  rw [maskForTunnel_eq, List.map_append]
  cases hua : headers.any (fun h => isUserAgent h.1) with
  | true => simpa using hkept
  | false =>
      have hlower : asciiLower agentHeader.1 = "user-agent" := by decide
      rw [if_neg Bool.false_ne_true, List.map_singleton, hlower, ← List.concat_eq_append]
      refine hkept.concat fun hmem => ?_
      obtain ⟨g, hg, hname⟩ := List.mem_map.mp hmem
      have hno := List.any_eq_false.mp hua g (List.mem_of_mem_filter hg)
      exact hno (decide_eq_true hname)

/-- **The gateway removes the hop headers and adds a user agent when there is none, the masking is
idempotent, and at its result the agent changes only the letter case of the names.** -/
theorem header_masking (headers : List (String × Text)) :
    maskForTunnel headers = headers.filter (fun h => !isHop h.1) ++
        (if headers.any (fun h => isUserAgent h.1) then [] else [agentHeader]) ∧
      maskForTunnel (maskForTunnel headers) = maskForTunnel headers ∧
      (http.Lawful → (∀ h ∈ headers, (http.parseName h.1).isSome) →
        (∀ h ∈ headers, Visible h.2) → (headers.map (fun h => asciiLower h.1)).Nodup →
        ∃ out, http.serveHeaders ((maskForTunnel headers).map (fun h => (h.1, Json.str h.2))) =
            some out ∧
          out.Perm ((maskForTunnel headers).map (fun h => (asciiLower h.1, Json.str h.2)))) := by
  refine ⟨maskForTunnel_eq headers, maskForTunnel_idem headers,
    fun hhttp hnames hvalues hnodup => serveHeaders_perm hhttp ?_ ?_ (nodup_maskForTunnel hnodup)
      (fun h hh => isHop_of_mem_maskForTunnel hh) (any_userAgent_maskForTunnel headers)⟩
  · intro h hh
    rcases mem_maskForTunnel hh with hh | rfl
    · exact hnames h hh
    · exact hhttp.agentHeader_valid
  · intro h hh
    rcases mem_maskForTunnel hh with hh | rfl
    · exact hvalues h hh
    · intro c hc
      have hall : agentHeader.2.all (fun c => 32 ≤ c.toNat && c.toNat < 127) = true := by decide
      simpa using List.all_eq_true.mp hall c hc

/-- A header map as a list, with the names and values that the crate reads. -/
def listHttp : HttpCrate String Text (List (String × Text)) where
  parseName s :=
    if s ≠ "" ∧ s.length < 65536 ∧
        s.toList.all (fun c => c.isAlphanum || "!#$%&'*+-.^_|~".toList.contains c) then
      some (asciiLower s)
    else none
  nameText name := name
  parseValue v := if v.all (fun c => 32 ≤ c.toNat && c.toNat < 127) then some v else none
  toStr v := some v
  userAgent := "user-agent"
  empty := []
  insert m n v := (n, v) :: m.filter (fun e => e.1 ≠ n)
  remove m s := m.filter (fun e => e.1 ≠ asciiLower s)
  containsKey m s := m.any (fun e => e.1 = asciiLower s)
  iter m := m

theorem lawful_listHttp : listHttp.Lawful where
  nameText_parse h := by
    dsimp only [listHttp] at h
    split_ifs at h
    exact (Option.some.inj h).symm
  parse_token s hne hlen hchars := by
    have hall : s.toList.all
        (fun c => c.isAlphanum || "!#$%&'*+-.^_|~".toList.contains c) = true := by
      refine List.all_eq_true.mpr fun c hc => ?_
      rcases hchars c hc with halpha | rfl
      · rw [halpha, Bool.true_or]
      · decide
    dsimp only [listHttp]
    rw [if_pos ⟨hne, hlen, hall⟩]
    rfl
  parse_visible {v} hv := by
    have hall : v.all (fun c => 32 ≤ c.toNat && c.toNat < 127) = true :=
      List.all_eq_true.mpr fun c hc => by simpa using hv c hc
    refine ⟨v, ?_, rfl⟩
    dsimp only [listHttp]
    rw [if_pos hall]
  userAgent_text := rfl
  iter_empty := rfl
  iter_insert _ _ _ := List.Perm.refl _
  iter_remove _ _ _ := List.Perm.refl _
  containsKey_iff m s _ := by
    dsimp only [listHttp]
    simp

/-- The headers of a request that came through a proxy. -/
def proxied : List (String × Text) := [("Via", "1.1 proxy".toList), ("Accept", "*/*".toList)]

theorem header_masking_proxied :
    maskForTunnel proxied = [("Accept", "*/*".toList), agentHeader] ∧
      ∃ out, listHttp.serveHeaders ((maskForTunnel proxied).map (fun h => (h.1, Json.str h.2))) =
          some out ∧
        out.Perm ((maskForTunnel proxied).map (fun h => (asciiLower h.1, Json.str h.2))) := by
  obtain ⟨heq, -, hboth⟩ := @header_masking _ _ _ listHttp proxied
  refine ⟨heq.trans (by decide), hboth lawful_listHttp (by decide) ?_ (by decide)⟩
  intro h hh c hc
  have hall : proxied.all (fun h => h.2.all (fun c => 32 ≤ c.toNat && c.toNat < 127)) = true := by
    decide
  simpa using List.all_eq_true.mp (List.all_eq_true.mp hall h hh) c hc

end HttpCrate.Lawful

end FirewallLLM.Tunnel
