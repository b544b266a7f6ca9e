/-
What a request carries through the gateway to a service and back.

Gateway and service both run `RequestContextMiddleware` (`rcp_common/middleware.py`): each logs a
request id and a trace id and puts both into its answer.  Between them `forward`
(`gateway/app/proxy.py`) copies the headers that are not hop-by-hop and sets `traceparent`.
Headers are pairs with the name in lower case, as the server hands them over; the client library
between gateway and service is a parameter.
-/
import Rcp.Common.Split

namespace Rcp
namespace Gateway
namespace Forward

/-- Headers as they arrive: a name may come twice. -/
abbrev Headers := List (String × String)

/-- `headers.get(name)`: the first value. -/
def first (headers : Headers) (name : String) : Option String :=
  (headers.find? fun h => h.1 == name).map Prod.snd

/-- The last value. -/
def last (headers : Headers) (name : String) : Option String := first headers.reverse name

/-! ## `RequestContextMiddleware` -/

/-- The random identifiers that one service draws for one request: `uuid4().hex`, and its first
sixteen digits for a span. -/
structure Draws where
  requestId : String
  traceId : String
  spanId : String
  traceLength : traceId.length = 32
  spanLength : spanId.length = 16
  traceHex : '-' ∉ traceId.toList
  spanHex : '-' ∉ spanId.toList

/-- `_parse_traceparent`. -/
def parseTraceparent (draws : Draws) : Option String → String × String
  | none => (draws.traceId, draws.spanId)
  | some value =>
      match value.toList.splitOn '-' with
      | [_, trace, parent, _] =>
          if trace.length = 32 ∧ parent.length = 16 then (String.ofList trace, draws.spanId)
          else (draws.traceId, draws.spanId)
      | _ => (draws.traceId, draws.spanId)

/-- What the middleware keeps in `request.state` and logs. -/
structure Context where
  requestId : String
  traceId : String
  traceparent : String

/-- `f"00-{trace_id}-{span_id}-01"`. -/
def traceparentOf (trace span : String) : String :=
  String.ofList (['-'].intercalate ["00".toList, trace.toList, span.toList, "01".toList])

/-- `value or drawn`. -/
def orDrawn (drawn : String) : Option String → String
  | none => drawn
  | some value => if value = "" then drawn else value

/-- The first part of `dispatch`, before the request goes on. -/
def context (draws : Draws) (headers : Headers) : Context :=
  let ids := parseTraceparent draws (first headers "traceparent")
  { requestId := orDrawn draws.requestId (first headers "x-request-id")
    traceId := ids.1
    traceparent := traceparentOf ids.1 ids.2 }

/-- Setting a header of an answer. -/
def setHeader (headers : Headers) (name value : String) : Headers :=
  headers.filter (fun h => h.1 ≠ name) ++ [(name, value)]

/-- The second part of `dispatch`: what is set on the answer. -/
def finish (context : Context) (headers : Headers) : Headers :=
  setHeader (setHeader headers "x-request-id" context.requestId) "traceparent"
    context.traceparent

/-! ## `forward` -/

/-- `_HOP_BY_HOP`. -/
def hopByHop : List String :=
  ["connection", "keep-alive", "proxy-authenticate", "proxy-authorization", "te", "trailers",
    "transfer-encoding", "upgrade", "host", "content-length"]

/-- `{key: value for key, value in headers.items() if key.lower() not in _HOP_BY_HOP}`. -/
def passed (headers : Headers) : Dict String String :=
  (headers.filter fun h => h.1 ∉ hopByHop).foldl (fun d h => d.set h.1 h.2) []

/-- `headers.items()` of an upstream response: values of one name are joined. -/
def items (headers : Headers) : Dict String String :=
  headers.foldl
    (fun d h => d.set h.1 ((d.get? h.1).elim h.2 fun value => value ++ ", " ++ h.2)) []

/-- The headers of the upstream request. -/
def upstreamHeaders (headers : Headers) (context : Context) (client : Option String) :
    Dict String String :=
  let headers := (passed headers).set "traceparent" context.traceparent
  match client with
  | none => headers
  | some host => headers.set "X-Forwarded-For" host

/-- One request through the gateway: the contexts of both services and the headers of the
answer. -/
structure Exchange where
  gateway : Context
  service : Context
  answer : Headers

/-- `wire` is what the service receives of the headers that are sent, and `reply` what it answers
with before its middleware. -/
def exchange (wire : Dict String String → Headers) (reply : Headers) (gateway service : Draws)
    (headers : Headers) (client : Option String) : Exchange :=
  let outer := context gateway headers
  let inner := context service (wire (upstreamHeaders headers outer client))
  { gateway := outer
    service := inner
    answer := finish outer (passed (items (finish inner reply))) }

/-- The client library sends the two identifiers as they stand in the dict. -/
def Delivers (wire : Dict String String → Headers) (sent : Dict String String) : Prop :=
  ∀ name ∈ ["traceparent", "x-request-id"], first (wire sent) name = sent.get? name

/-! ## Headers -/

section Headers

variable {headers : Headers} {name : String}

theorem first_cons (h : String × String) (rest : Headers) :
    first (h :: rest) name = if h.1 = name then some h.2 else first rest name := by
  unfold first
  by_cases hname : h.1 = name
  · rw [List.find?_cons_of_pos (by simpa using hname), if_pos hname]
    rfl
  · rw [List.find?_cons_of_neg (by simpa using hname), if_neg hname]

theorem first_append (l m : Headers) : first (l ++ m) name = (first l name).or (first m name) := by
  induction l with
  | nil => rfl
  | cons h rest ih =>
      rw [List.cons_append, first_cons, first_cons, ih]
      split <;> rfl

theorem last_cons (h : String × String) (rest : Headers) :
    last (h :: rest) name = (last rest name).or (if h.1 = name then some h.2 else none) := by
  unfold last
  rw [List.reverse_cons, first_append, first_cons]
  rfl

theorem first_filter {p : String × String → Bool} (hp : ∀ h, h.1 = name → p h = true) :
    first (headers.filter p) name = first headers name := by
  induction headers with
  | nil => rfl
  | cons h rest ih =>
      by_cases hh : p h = true
      · rw [List.filter_cons_of_pos hh, first_cons, first_cons, ih]
      · rw [List.filter_cons_of_neg hh, first_cons, ih, if_neg fun hname => hh (hp h hname)]

theorem last_filter {p : String × String → Bool} (hp : ∀ h, h.1 = name → p h = true) :
    last (headers.filter p) name = last headers name := by
  unfold last
  rw [← List.filter_reverse, first_filter hp]

theorem mem_of_first {value : String} (h : first headers name = some value) :
    (name, value) ∈ headers := by
  unfold first at h
  obtain ⟨found, hfound, rfl⟩ := Option.map_eq_some_iff.mp h
  have hname := List.find?_some hfound
  rw [beq_iff_eq] at hname
  exact hname ▸ List.mem_of_find?_eq_some hfound

theorem mem_of_last {value : String} (h : last headers name = some value) :
    (name, value) ∈ headers := List.mem_reverse.mp (mem_of_first h)

/-- A dict that is filled has the last value of each name. -/
theorem get?_fill (headers : Headers) (d : Dict String String) (name : String) :
    (headers.foldl (fun d h => d.set h.1 h.2) d).get? name =
      (last headers name).or (d.get? name) := by
  induction headers generalizing d with
  | nil => rfl
  | cons h rest ih =>
      rw [List.foldl_cons, ih, last_cons, Dict.get?_set]
      cases last rest name with
      | some value => rfl
      | none =>
          show (if h.1 = name then some h.2 else d.get? name) =
            (if h.1 = name then some h.2 else none).or (d.get? name)
          split <;> rfl

theorem get?_passed (headers : Headers) (name : String) :
    (passed headers).get? name = if name ∈ hopByHop then none else last headers name := by
  unfold passed
  rw [get?_fill]
  split
  · rename_i hhop
    have hnone : last (headers.filter fun h => h.1 ∉ hopByHop) name = none := by
      cases hlast : last (headers.filter fun h => h.1 ∉ hopByHop) name with
      | none => rfl
      | some value =>
          have hkept := (List.mem_filter.mp (mem_of_last hlast)).2
          exact absurd hhop (of_decide_eq_true hkept)
    rw [hnone]
    rfl
  · rename_i hhop
    rw [last_filter fun h hname => decide_eq_true (hname ▸ hhop)]
    exact Option.or_none

/-- What the upstream gets: no hop-by-hop header, the trace of the gateway, the address of the
client, and the last value of every other header. -/
theorem get?_upstreamHeaders (headers : Headers) (context : Context) (client : Option String)
    (name : String) :
    (upstreamHeaders headers context client).get? name =
      if name = "X-Forwarded-For" ∧ client.isSome then client
      else if name = "traceparent" then some context.traceparent
      else if name ∈ hopByHop then none
      else last headers name := by
  have htrace : ((passed headers).set "traceparent" context.traceparent).get? name =
      if name = "traceparent" then some context.traceparent
      else if name ∈ hopByHop then none
      else last headers name := by
    rw [Dict.get?_set, get?_passed]
    simp only [eq_comm]
  unfold upstreamHeaders
  cases client with
  | none => simpa using htrace
  | some host =>
      show (Dict.set _ "X-Forwarded-For" host).get? name = _
      rw [Dict.get?_set, htrace]
      simp only [Option.isSome_some, and_true, eq_comm]

end Headers

/-! ## Traces -/

section Traces

variable {draws : Draws}

/-- The trace of a header that one of the services has written is read back. -/
theorem parse_traceparentOf {trace span : String} (htrace : '-' ∉ trace.toList)
    (hspan : '-' ∉ span.toList) (htraceLength : trace.length = 32)
    (hspanLength : span.length = 16) :
    parseTraceparent draws (some (traceparentOf trace span)) = (trace, draws.spanId) := by
  have hparts : (traceparentOf trace span).toList.splitOn '-' =
      ["00".toList, trace.toList, span.toList, "01".toList] := by
    unfold traceparentOf
    rw [String.toList_ofList]
    refine List.splitOn_intercalate '-' ?_ (List.cons_ne_nil _ _)
    simp [htrace, hspan]
  unfold parseTraceparent
  simp only [hparts]
  rw [if_pos ⟨htraceLength, hspanLength⟩, String.ofList_toList]

/-- The trace id is one that can be handed on. -/
theorem parse_wellFormed (draws : Draws) (value : Option String) :
    '-' ∉ (parseTraceparent draws value).1.toList ∧
      (parseTraceparent draws value).1.length = 32 ∧
      (parseTraceparent draws value).2 = draws.spanId := by
  unfold parseTraceparent
  split
  · exact ⟨draws.traceHex, draws.traceLength, rfl⟩
  · split
    · rename_i value _ _ trace parent _ hparts
      split
      · rename_i hlength
        refine ⟨?_, ?_, rfl⟩
        · rw [String.toList_ofList]
          refine not_mem_of_mem_splitOn (l := value.toList) ?_
          rw [hparts]
          exact List.mem_cons_of_mem _ List.mem_cons_self
        · rw [String.length_ofList]
          exact hlength.1
      · exact ⟨draws.traceHex, draws.traceLength, rfl⟩
    · exact ⟨draws.traceHex, draws.traceLength, rfl⟩

/-- Any of the services that reads what another has written is in its trace. -/
theorem trace_kept {draws' : Draws} (headers : Headers) :
    (parseTraceparent draws' (some (context draws headers).traceparent)).1 =
      (context draws headers).traceId := by
  obtain ⟨htrace, hlength, hspan⟩ := parse_wellFormed draws (first headers "traceparent")
  show (parseTraceparent draws' (some (traceparentOf _ _))).1 = _
  rw [hspan, parse_traceparentOf htrace draws.spanHex hlength draws.spanLength]
  rfl

theorem first_setHeader (headers : Headers) (name value name' : String) :
    first (setHeader headers name value) name' =
      if name = name' then some value else first headers name' := by
  unfold setHeader
  rw [first_append, first_cons]
  by_cases hname : name = name'
  · subst hname
    have hnone : first (headers.filter fun h => h.1 ≠ name) name = none := by
      cases hfirst : first (headers.filter fun h => h.1 ≠ name) name with
      | none => rfl
      | some value =>
          exact absurd rfl (of_decide_eq_true (List.mem_filter.mp (mem_of_first hfirst)).2)
    rw [hnone, if_pos rfl, if_pos rfl]
    rfl
  · have hkept : first (headers.filter fun h => h.1 ≠ name) name' = first headers name' :=
      first_filter fun h hh => decide_eq_true fun heq : h.1 = name => hname (heq.symm.trans hh)
    rw [hkept, if_neg hname, if_neg hname]
    exact Option.or_none

theorem first_finish (context : Context) (headers : Headers) :
    first (finish context headers) "traceparent" = some context.traceparent ∧
      first (finish context headers) "x-request-id" = some context.requestId := by
  unfold finish
  constructor
  · rw [first_setHeader, if_pos rfl]
  · rw [first_setHeader, if_neg (by decide), first_setHeader, if_pos rfl]

/-- Two ids agree only if they are not drawn. -/
theorem orDrawn_eq_iff {drawn drawn' : String} {value value' : Option String}
    (hdrawn : drawn ≠ drawn') (hvalue : ∀ v, value = some v → v ≠ drawn')
    (hvalue' : ∀ v, value' = some v → v ≠ drawn) :
    orDrawn drawn' value' = orDrawn drawn value ↔
      ∃ v, v ≠ "" ∧ value = some v ∧ value' = some v := by
  have hcases : ∀ d (o : Option String),
      (orDrawn d o = d ∧ ∀ v, v ≠ "" → o ≠ some v) ∨
        ∃ v, v ≠ "" ∧ o = some v ∧ orDrawn d o = v := by
    intro d o
    cases o with
    | none => exact .inl ⟨rfl, fun v _ => by simp⟩
    | some v =>
        by_cases hv : v = ""
        · refine .inl ⟨if_pos hv, fun v' hv' heq => hv' ?_⟩
          rw [← Option.some.inj heq, hv]
        · exact .inr ⟨v, hv, rfl, if_neg hv⟩
  rcases hcases drawn value with ⟨heq, hnone⟩ | ⟨v, hv, rfl, heq⟩ <;>
    rcases hcases drawn' value' with ⟨heq', hnone'⟩ | ⟨v', hv', rfl, heq'⟩ <;> rw [heq, heq']
  · exact iff_of_false (Ne.symm hdrawn) fun ⟨v, hv, h, _⟩ => hnone v hv h
  · exact iff_of_false (hvalue' v' rfl) fun ⟨v, hv, h, _⟩ => hnone v hv h
  · exact iff_of_false (Ne.symm (hvalue v rfl)) fun ⟨v, hv, _, h⟩ => hnone' v hv h
  · constructor
    · rintro rfl
      exact ⟨_, hv, rfl, rfl⟩
    · rintro ⟨w, -, h, h'⟩
      rw [Option.some.inj h, Option.some.inj h']

end Traces

/-- Gateway and service are in one trace, the answer names it, and the headers that are not
hop-by-hop go through.  The two have one request id if and only if the client has sent one and no
other after it: the id that the gateway draws itself is not forwarded. -/
theorem one_trace (wire : Dict String String → Headers) (reply : Headers)
    (gateway service : Draws) (headers : Headers) (client : Option String)
    (hwire : Delivers wire (upstreamHeaders headers (context gateway headers) client))
    (hdraws : gateway.requestId ≠ service.requestId)
    (hfresh : ∀ h ∈ headers, h.2 ≠ gateway.requestId ∧ h.2 ≠ service.requestId) (e : Exchange)
    (he : e = exchange wire reply gateway service headers client) :
    e.service.traceId = e.gateway.traceId ∧
    first e.answer "traceparent" = some e.gateway.traceparent ∧
    first e.answer "x-request-id" = some e.gateway.requestId ∧
    (∀ name, name ∉ hopByHop → name ≠ "traceparent" → name ≠ "X-Forwarded-For" →
      (upstreamHeaders headers e.gateway client).get? name = last headers name) ∧
    (∀ name ∈ hopByHop, (upstreamHeaders headers e.gateway client).get? name = none) ∧
    (e.service.requestId = e.gateway.requestId ↔
      ∃ requestId, requestId ≠ "" ∧ first headers "x-request-id" = some requestId ∧
        last headers "x-request-id" = some requestId) := by
  subst he
  have htrace := hwire "traceparent" List.mem_cons_self
  have hrequest := hwire "x-request-id" (List.mem_cons_of_mem _ List.mem_cons_self)
  rw [get?_upstreamHeaders, if_neg (by simp), if_pos rfl] at htrace
  rw [get?_upstreamHeaders, if_neg (by simp), if_neg (by decide), if_neg (by decide)] at hrequest
  refine ⟨?_, (first_finish _ _).1, (first_finish _ _).2, fun name hhop hname hfor => ?_,
    fun name hhop => ?_, ?_⟩
  · show (parseTraceparent service (first _ "traceparent")).1 = _
    rw [htrace]
    exact trace_kept headers
  · rw [get?_upstreamHeaders, if_neg (fun h => hfor h.1), if_neg hname, if_neg hhop]
  · have hne : name ≠ "X-Forwarded-For" ∧ name ≠ "traceparent" := by
      constructor <;> rintro rfl <;> exact absurd hhop (by decide)
    rw [get?_upstreamHeaders, if_neg (fun h => hne.1 h.1), if_neg hne.2, if_pos hhop]
  · show (context service _).requestId = (context gateway headers).requestId ↔ _
    show orDrawn _ (first _ "x-request-id") = orDrawn _ _ ↔ _
    rw [hrequest]
    exact orDrawn_eq_iff hdraws (fun v h => (hfresh _ (mem_of_first h)).2)
      fun v h => (hfresh _ (mem_of_last h)).1

def gatewayDraws : Draws :=
  { requestId := "g"
    traceId := "0123456789abcdef0123456789abcdef"
    spanId := "0123456789abcdef"
    traceLength := rfl
    spanLength := rfl
    traceHex := by decide
    spanHex := by decide }

def serviceDraws : Draws := { gatewayDraws with requestId := "s" }

/-- What happens to a client that sends no identifiers. -/
def unnamed : Exchange := exchange id [] gatewayDraws serviceDraws [("accept", "*/*")] none

theorem unnamed_delivered :
    Delivers id (upstreamHeaders [("accept", "*/*")]
      (context gatewayDraws [("accept", "*/*")]) none) := by
  unfold Delivers
  decide +kernel

theorem one_trace_unnamed : unnamed.service.requestId ≠ unnamed.gateway.requestId := by
  have h := one_trace id [] gatewayDraws serviceDraws [("accept", "*/*")] none unnamed_delivered
    (by decide) (by decide) unnamed rfl
  intro heq
  obtain ⟨requestId, -, hfirst, -⟩ := h.2.2.2.2.2.mp heq
  cases hfirst

end Forward
end Gateway
end Rcp
