import Elan.QueryAudit
import Elan.Session
import Mathlib.Data.List.DropRight

/-! The HTTP API between the terminal and the query service: whom the service answers, and what the
terminal reads of the answer. -/
namespace Elan

/-- What the HTTP libraries do: whether a text may be the value of a header, the value that
arrives, the text that it is read as, and how a request or the reading of a response fails. -/
class Http where
  isHeaderValue : String → Bool
  receivedValue : String → String
  toStr : String → Option String
  builderError : String
  decodeError : String → String

def Http.isBlank (c : Char) : Bool := decide (c = ' ') || decide (c = '\t')

def Http.isControl (c : Char) : Bool :=
  decide (c ≠ '\t') && (decide (c.val < 32) || decide (c.val = 127))

def Http.isVisible (c : Char) : Bool :=
  decide (c = '\t') || (decide (32 ≤ c.val) && decide (c.val < 127))

/-- Headers carry any text without control characters, less the blanks around it, and are read as
texts of visible characters only. -/
structure Http.Documented [Http] : Prop where
  isHeaderValue : ∀ s, isHeaderValue s = s.toList.all (!Http.isControl ·)
  receivedValue : ∀ s,
    receivedValue s = String.ofList ((s.toList.dropWhile Http.isBlank).rdropWhile Http.isBlank)
  toStr : ∀ s, toStr s = if s.toList.all Http.isVisible then some s else none

structure HttpRequest where
  authorization : Option String
  body : Option String

structure HttpReply where
  status : StatusCode
  body : String

/-! ### The bodies -/

section
open Fields

def QueryRequest.fields : Fields ["sql","session_id"] QueryRequest :=
  ((field "sql" .string).both <| optional "session_id" .string).map
    (fun p => ⟨p.1,p.2⟩) (fun r => (r.sql,r.sessionId)) fun _ => rfl

def QueryResponse.fields : Fields ["query_id","columns","rows","duration_ms"] QueryResponse :=
  ((field "query_id" .uuid).both <| (field "columns" (.list .string)).both <|
    (field "rows" (.list (.list .value))).both <| field "duration_ms" (.unsigned 64)).map
    (fun p => ⟨p.1,p.2.1,p.2.2.1,p.2.2.2⟩)
    (fun r => (r.queryId,r.columns,r.rows,r.durationMs)) fun _ => rfl

def ErrorResponse.fields : Fields ["error","detail"] ErrorResponse :=
  ((field "error" .string).both <| optional "detail" .string).map
    (fun p => ⟨p.1,p.2⟩) (fun r => (r.error,r.detail)) fun _ => rfl

def DatasetSummary.fields : Fields ["name","source_type","coordinator_id"] DatasetSummary :=
  (((field "name" .string).both (field "source_type" .string)).both
    (field "coordinator_id" .string)).map
    (fun p => ⟨p.1.1,p.1.2,p.2⟩) (fun d => ((d.name,d.sourceType),d.coordinatorId)) fun _ => rfl

def NamespaceInfo.fields : Fields ["name","datasets"] NamespaceInfo :=
  ((field "name" .string).both <| field "datasets" (.list DatasetSummary.fields.object)).map
    (fun p => ⟨p.1,p.2⟩) (fun n => (n.name,n.datasets)) fun _ => rfl

/-- The response to `GET /api/v1/catalog`, by its only field. -/
def catalogResponse : Fields ["namespaces"] (List NamespaceInfo) :=
  field "namespaces" (.list NamespaceInfo.fields.object)

end

/-- The text of a document is read as the document. -/
def JsonValue.ReadsBack [JsonText] (v : JsonValue) : Prop :=
  JsonText.fromStr (JsonText.toString v) = some v

namespace Codec

variable [JsonText] {α : Type}

def toText (c : Codec α) (a : α) : String := JsonText.toString (c.serialize a)

def ofText (c : Codec α) (text : String) : Option α :=
  (JsonText.fromStr text).bind c.deserialize

theorem ofText_toText (c : Codec α) {a : α} (h : c.Valid a) (hread : (c.serialize a).ReadsBack) :
    c.ofText (c.toText a) = some a := by
  rw [ofText,toText,hread,Option.bind_some,c.deserialize_serialize a h]

end Codec

/-! ### The service -/

def stripPrefix (text part : String) : Option String :=
  (text.toList.dropPrefix? part.toList).map String.ofList

def extractSubject [Http] (authorization : Option String) : Subject where
  userId :=
    ((authorization.bind Http.toStr).bind (stripPrefix · "Bearer ")).getD "anonymous"
  groups := []

def QueryAudit.Answer.document : QueryAudit.Answer → JsonValue
  | .ok response => QueryResponse.fields.object.serialize response
  | .error (_,e) => ErrorResponse.fields.object.serialize e

def QueryAudit.Answer.status : QueryAudit.Answer → StatusCode
  | .ok _ => .ok
  | .error (status,_) => status

/-- What a query service answers from: the results of queries and the catalogs, of each subject,
and its replies to bodies that are no requests. -/
structure QueryService (A : Type) [ArrowArray A] where
  run : Subject → String → Except String (List (ArrowBatch A))
  queryId : Uuid
  durationMs : ℕ
  catalog : Subject → ElanCatalogProvider
  rejection : Option String → HttpReply

namespace QueryService

variable {A : Type} [ArrowArray A]

def answer (svc : QueryService A) (subject : Subject) (body : QueryRequest) : QueryAudit.Answer :=
  (QueryAudit.outcome svc.queryId (svc.run subject body.sql) svc.durationMs).2

variable [Http] [JsonText]

def handleQuery (svc : QueryService A) (req : HttpRequest) : HttpReply :=
  match req.body.bind QueryRequest.fields.object.ofText with
  | none => svc.rejection req.body
  | some body =>
    let answer := svc.answer (extractSubject req.authorization) body
    ⟨answer.status,JsonText.toString answer.document⟩

def handleCatalog (svc : QueryService A) (req : HttpRequest) : HttpReply :=
  ⟨.ok,catalogResponse.object.toText
    (Elan.handleCatalog (svc.catalog (extractSubject req.authorization)))⟩

end QueryService

/-! ### The client -/

structure QueryClient where
  baseUrl : String
  username : String

/-- A request to an address, and its reply or the error of the connection. -/
abbrev Network := String → HttpRequest → Except String HttpReply

namespace QueryClient

variable [Http]

def authorization (c : QueryClient) : String := "Bearer " ++ c.username

/-- Requests whose header has no value are not sent. -/
def send (c : QueryClient) (net : Network) (path : String) (body : Option String) :
    Except String HttpReply :=
  if Http.isHeaderValue c.authorization then
    net (c.baseUrl ++ path) ⟨some c.authorization,body⟩
  else .error Http.builderError

variable [JsonText]

def query (c : QueryClient) (net : Network) (sql sessionId : String) :
    Except String QueryResponse := do
  let resp ← c.send net "/api/v1/query"
    (some (QueryRequest.fields.object.toText ⟨sql,some sessionId⟩))
  if resp.status.isSuccess then
    match QueryResponse.fields.object.ofText resp.body with
    | some response => .ok response
    | none => .error (Http.decodeError resp.body)
  else
    let body := ((JsonText.fromStr resp.body).map JsonValue.toValue).getD .null
    .error ("query failed (" ++ resp.status.toString ++ "): " ++ JsonText.toString body)

def catalog (c : QueryClient) (net : Network) : Except String (List NamespaceInfo) := do
  let resp ← c.send net "/api/v1/catalog" none
  if resp.status.isSuccess then
    match catalogResponse.object.ofText resp.body with
    | some namespaces => .ok namespaces
    | none => .error (Http.decodeError resp.body)
  else
    .error ("catalog request failed (" ++ resp.status.toString ++ "): " ++ resp.body)

end QueryClient

/-! ### Whom the service answers -/

/-- The user that a name given to the terminal stands for: the name without the blanks after it, or
nobody when nothing is left of it or it is not of visible characters. -/
def servedName (user : String) : String :=
  if user.toList.all Http.isVisible then
    match user.toList.rdropWhile Http.isBlank with
    | [] => "anonymous"
    | name => String.ofList name
  else "anonymous"

theorem rdropWhile_append {α : Type} (p : α → Bool) (xs ys : List α) :
    (xs ++ ys).rdropWhile p =
      if ys.rdropWhile p = [] then xs.rdropWhile p else xs ++ ys.rdropWhile p := by
  simp only [List.rdropWhile,List.reverse_append,List.dropWhile_append,List.isEmpty_iff,
    List.reverse_eq_nil_iff]
  split_ifs <;> simp

theorem stripPrefix_append (part rest : String) : stripPrefix (part ++ rest) part = some rest := by
  have hdrop : (part ++ rest).toList.dropPrefix? part.toList = some rest.toList :=
    List.dropPrefix?_eq_some_iff.mpr ⟨part.toList,String.toList_append,by simp⟩
  rw [stripPrefix,hdrop,Option.map_some,String.ofList_toList]

theorem all_isVisible_rdropWhile (cs : List Char) :
    (cs.rdropWhile Http.isBlank).all Http.isVisible = cs.all Http.isVisible := by
  have hblank : ∀ c, Http.isBlank c = true → Http.isVisible c = true := by
    intro c hc
    simp only [Http.isBlank,Bool.or_eq_true,decide_eq_true_eq] at hc
    rcases hc with rfl | rfl <;> decide
  induction cs using List.reverseRecOn with
  | nil => rfl
  | append_singleton cs c ih =>
    by_cases hc : Http.isBlank c = true
    · rw [List.rdropWhile_concat_pos _ _ _ hc,ih]
      simp [hblank c hc]
    · rw [List.rdropWhile_concat_neg _ _ _ hc]

theorem not_isControl_of_isVisible {c : Char} (h : Http.isVisible c = true) :
    Http.isControl c = false := by
  unfold Http.isVisible at h
  unfold Http.isControl
  by_cases htab : c = '\t'
  · simp [htab]
  · simp only [htab,decide_false,Bool.false_or,Bool.and_eq_true,decide_eq_true_eq] at h
    have hlow : ¬ c.val < 32 := UInt32.not_lt.mpr h.1
    have hhigh : c.val ≠ 127 := UInt32.ne_of_lt h.2
    simp [hlow,hhigh]

theorem servedName_eq_self_iff {user : String} :
    servedName user = user ↔ user.toList.all Http.isVisible = true ∧
      ∃ last ∈ user.toList.getLast?, Http.isBlank last = false := by
  unfold servedName
  constructor
  · intro h
    split_ifs at h with hvisible
    · refine ⟨hvisible,?_⟩
      cases hname : user.toList.rdropWhile Http.isBlank with
      | nil =>
        rw [hname] at h
        subst h
        exact absurd hname (by decide)
      | cons c cs =>
        rw [hname] at h
        have hself : user.toList.rdropWhile Http.isBlank = user.toList := by
          rw [hname,← h,String.toList_ofList]
        have hne : user.toList ≠ [] := by
          rw [← hself,hname]
          exact List.cons_ne_nil c cs
        have hlast := List.rdropWhile_eq_self_iff.mp hself hne
        exact ⟨user.toList.getLast hne,List.getLast?_eq_some_getLast hne,by simpa using hlast⟩
    · subst h
      exact absurd (by decide) hvisible
  · rintro ⟨hvisible,last,hlast,hblank⟩
    obtain ⟨init,hinit⟩ := List.getLast?_eq_some_iff.mp hlast
    have hself : user.toList.rdropWhile Http.isBlank = user.toList := by
      rw [hinit]
      exact List.rdropWhile_concat_neg _ _ _ (by simp [hblank])
    have hne : user.toList ≠ [] := by simp [hinit]
    rw [if_pos hvisible,hself]
    split
    · rename_i hnil
      exact absurd hnil hne
    · exact String.ofList_toList

section
variable [Http]

theorem extractSubject_received (h : Http.Documented) (user : String) :
    extractSubject (some (Http.receivedValue ("Bearer " ++ user))) = ⟨servedName user,[]⟩ := by
  have hreceived : Http.receivedValue ("Bearer " ++ user) =
      if user.toList.rdropWhile Http.isBlank = [] then "Bearer"
      else "Bearer " ++ String.ofList (user.toList.rdropWhile Http.isBlank) := by
    have hfront : ("Bearer " ++ user).toList.dropWhile Http.isBlank =
        "Bearer ".toList ++ user.toList := by
      rw [String.toList_append]
      rfl
    rw [h.receivedValue,hfront,rdropWhile_append]
    split_ifs with hnil
    · rfl
    · rw [String.ofList_append,String.ofList_toList]
  rw [hreceived]
  unfold extractSubject servedName
  by_cases hnil : user.toList.rdropWhile Http.isBlank = []
  · have hbare : stripPrefix "Bearer" "Bearer " = none := by decide
    have htoStr : Http.toStr "Bearer" = some "Bearer" := by
      rw [h.toStr]
      rfl
    simp only [hnil,if_true,Option.bind_some,htoStr,hbare,Option.getD_none]
    split_ifs <;> rfl
  · have hbearer : "Bearer ".toList.all Http.isVisible = true := by decide
    have hall := all_isVisible_rdropWhile user.toList
    cases hname : user.toList.rdropWhile Http.isBlank with
    | nil => exact absurd hname hnil
    | cons c cs =>
      rw [hname] at hall
      rw [if_neg (List.cons_ne_nil c cs),Option.bind_some,h.toStr,String.toList_append,
        List.all_append,hbearer,Bool.true_and,String.toList_ofList,hall]
      split_ifs with hvisible
      · simp [stripPrefix_append]
      · rfl

theorem isHeaderValue_bearer (h : Http.Documented) (user : String) :
    Http.isHeaderValue ("Bearer " ++ user) = user.toList.all (!Http.isControl ·) := by
  have hbearer : "Bearer ".toList.all (!Http.isControl ·) = true := by decide
  rw [h.isHeaderValue,String.toList_append,List.all_append,hbearer,Bool.true_and]

/-- A user is answered under the name given to the terminal exactly when it is not empty, all
visible, where a tab counts as visible, and does not end in a blank. -/
theorem QueryClient.own_name_iff (h : Http.Documented) (c : QueryClient) :
    (Http.isHeaderValue c.authorization = true ∧
      extractSubject (some (Http.receivedValue c.authorization)) = ⟨c.username,[]⟩) ↔
      c.username.toList.all Http.isVisible = true ∧
        ∃ last ∈ c.username.toList.getLast?, Http.isBlank last = false := by
  have hname : (⟨servedName c.username,[]⟩ : Subject) = ⟨c.username,[]⟩ ↔
      servedName c.username = c.username := by simp
  rw [authorization,isHeaderValue_bearer h,extractSubject_received h,hname,servedName_eq_self_iff,
    and_iff_right_iff_imp]
  rintro ⟨hvisible,-⟩
  rw [List.all_eq_true] at hvisible ⊢
  intro x hx
  simp [not_isControl_of_isVisible (hvisible x hx)]

end

/-! ### What the terminal reads -/

/-- Requests to the address reach the handler with the value that arrives of their header, and its
reply comes back. A server refuses bodies over its limit, 2 MB by default, before it asks the
handler: there it does not deliver. -/
def Network.Delivers [Http] (net : Network) (url : String) (handler : HttpRequest → HttpReply) :
    Prop :=
  ∀ authorization body, net url ⟨some authorization,body⟩ =
    .ok (handler ⟨some (Http.receivedValue authorization),body⟩)

section
variable {A : Type} [ArrowArray A]

theorem toValue_arrowColToJson (col : A) (row : ℕ) :
    (HttpQuery.arrowColToJson col row).toValue = HttpQuery.arrowColToJson col row := by
  unfold HttpQuery.arrowColToJson
  split_ifs
  · rfl
  · split <;> rfl

theorem valid_batchesToResponse (queryId : Uuid) (batches : List (ArrowBatch A)) {durationMs : ℕ}
    (h : durationMs < 2 ^ 64) :
    QueryResponse.fields.object.Valid (HttpQuery.batchesToResponse queryId batches durationMs) := by
  refine ⟨trivial,fun _ _ => trivial,?_,?_⟩
  · intro row hrow v hv
    unfold HttpQuery.batchesToResponse at hrow
    cases batches with
    | nil => simp at hrow
    | cons first rest =>
      obtain ⟨b,-,hrow⟩ := List.mem_flatMap.mp hrow
      obtain ⟨i,-,rfl⟩ := List.mem_map.mp hrow
      obtain ⟨col,-,rfl⟩ := List.mem_map.mp hv
      exact toValue_arrowColToJson col i
  · cases batches with
    | nil => exact h
    | cons first rest => exact h

theorem toValue_errorResponse (e : ErrorResponse) :
    (ErrorResponse.fields.object.serialize e).toValue = .object
      [("detail",(e.detail.map JsonValue.string).getD .null),("error",.string e.error)] := by
  have hcollect (v w : JsonValue) : (StringMap.collect [("error",v),("detail",w)]).entries =
      [("error",v),("detail",w)] := rfl
  have hsort (v w : JsonValue) : [("error",v),("detail",w)].insertionSort (·.1 ≤ ·.1) =
      [("detail",w),("error",v)] := by simp [List.insertionSort]
  have htree (v w : JsonValue) (hv : v.toValue = v) (hw : w.toValue = w) :
      (JsonValue.object [("error",v),("detail",w)]).toValue =
        .object [("detail",w),("error",v)] := by
    simp only [JsonValue.toValue,JsonValue.toValueEntries,JsonValue.toValueEntry,hv,hw,hcollect,
      hsort]
  obtain ⟨error,detail⟩ := e
  cases detail with
  | none => exact htree _ _ rfl rfl
  | some message => exact htree _ _ rfl rfl

variable [Http] [JsonText]

/-- What the terminal shows of an answer. -/
def QueryAudit.Answer.shown : QueryAudit.Answer → Except String QueryResponse
  | .ok response => .ok response
  | .error (status,e) =>
    .error ("query failed (" ++ status.toString ++ "): " ++ JsonText.toString
      (.object [("detail",(e.detail.map JsonValue.string).getD .null),("error",.string e.error)]))

omit [Http] [JsonText] in
/-- The service answers with a response that can be written, or with the status of a failure. -/
theorem QueryService.answer_cases (svc : QueryService A) (hduration : svc.durationMs < 2 ^ 64)
    (subject : Subject) (body : QueryRequest) :
    (∃ response, svc.answer subject body = .ok response ∧
      QueryResponse.fields.object.Valid response) ∨
    ∃ status e, svc.answer subject body = .error (status,e) ∧ status.isSuccess = false := by
  unfold answer
  cases svc.run subject body.sql with
  | ok batches => exact .inl ⟨_,rfl,valid_batchesToResponse svc.queryId batches hduration⟩
  | error message =>
    have houtcome : (QueryAudit.outcome (A := A) svc.queryId (.error message) svc.durationMs).2 =
      QueryAudit.failure message := rfl
    rw [houtcome]
    unfold QueryAudit.failure
    split_ifs
    · exact .inr ⟨.forbidden,⟨"AccessDenied",some message⟩,rfl,rfl⟩
    · exact .inr ⟨.internalServerError,⟨"query execution failed",some message⟩,rfl,rfl⟩

theorem QueryService.handleQuery_toText (svc : QueryService A) (authorization : Option String)
    {body : QueryRequest} (hread : (QueryRequest.fields.object.serialize body).ReadsBack) :
    svc.handleQuery ⟨authorization,some (QueryRequest.fields.object.toText body)⟩ =
      ⟨(svc.answer (extractSubject authorization) body).status,
        JsonText.toString (svc.answer (extractSubject authorization) body).document⟩ := by
  have hvalid : QueryRequest.fields.object.Valid body :=
    ⟨trivial,fun session _ => ⟨trivial,JsonValue.noConfusion⟩⟩
  have hbody := QueryRequest.fields.object.ofText_toText hvalid hread
  simp only [handleQuery,Option.bind_some,hbody]

/-- A query from the terminal that the network delivers is answered as the service answers the user
that the name stands for, and nothing of the answer is lost: neither the rows nor why there are
none. -/
theorem QueryClient.query_answered (h : Http.Documented) (c : QueryClient) (net : Network)
    (svc : QueryService A) (hduration : svc.durationMs < 2 ^ 64)
    (hnet : net.Delivers (c.baseUrl ++ "/api/v1/query") svc.handleQuery) (sql sessionId : String)
    (hrequest : (QueryRequest.fields.object.serialize ⟨sql,some sessionId⟩).ReadsBack)
    (hanswer : (svc.answer ⟨servedName c.username,[]⟩ ⟨sql,some sessionId⟩).document.ReadsBack) :
    c.query net sql sessionId =
      if c.username.toList.all (!Http.isControl ·) then
        (svc.answer ⟨servedName c.username,[]⟩ ⟨sql,some sessionId⟩).shown
      else .error Http.builderError := by
  unfold query send
  rw [authorization,isHeaderValue_bearer h]
  split_ifs with hsent
  · rw [hnet,svc.handleQuery_toText _ hrequest,extractSubject_received h]
    obtain ⟨response,hok,hvalid⟩ | ⟨status,e,herror,hstatus⟩ :=
      svc.answer_cases hduration ⟨servedName c.username,[]⟩ ⟨sql,some sessionId⟩
    · rw [hok] at hanswer ⊢
      have hbody := QueryResponse.fields.object.ofText_toText hvalid hanswer
      have hread : QueryResponse.fields.object.ofText
          (JsonText.toString (QueryAudit.Answer.document (.ok response))) = some response := hbody
      simp [bind,Except.bind,QueryAudit.Answer.status,QueryAudit.Answer.shown,hread]
    · rw [herror] at hanswer ⊢
      have hread : JsonText.fromStr
          (JsonText.toString (QueryAudit.Answer.document (.error (status,e)))) =
            some (ErrorResponse.fields.object.serialize e) := hanswer
      simp [bind,Except.bind,QueryAudit.Answer.status,QueryAudit.Answer.shown,hread,hstatus,
        toValue_errorResponse]
  · rfl

/-- The catalog in the terminal is the service's, of the user that the name stands for. -/
theorem QueryClient.catalog_answered (h : Http.Documented) (c : QueryClient) (net : Network)
    (svc : QueryService A)
    (hnet : net.Delivers (c.baseUrl ++ "/api/v1/catalog") svc.handleCatalog)
    (hanswer : (catalogResponse.object.serialize
      (handleCatalog (svc.catalog ⟨servedName c.username,[]⟩))).ReadsBack) :
    c.catalog net =
      if c.username.toList.all (!Http.isControl ·) then
        .ok (handleCatalog (svc.catalog ⟨servedName c.username,[]⟩))
      else .error Http.builderError := by
  have hvalid (namespaces : List NamespaceInfo) : catalogResponse.object.Valid namespaces :=
    fun _ _ => ⟨trivial,fun _ _ => ⟨⟨trivial,trivial⟩,trivial⟩⟩
  unfold catalog send
  rw [authorization,isHeaderValue_bearer h]
  split_ifs with hsent
  · have hbody := catalogResponse.object.ofText_toText (hvalid _) hanswer
    rw [hnet,QueryService.handleCatalog,extractSubject_received h]
    simp [bind,Except.bind,hbody]
  · rfl

end

@[reducible] def plainHttp : Http where
  isHeaderValue s := s.toList.all (!Http.isControl ·)
  receivedValue s := String.ofList ((s.toList.dropWhile Http.isBlank).rdropWhile Http.isBlank)
  toStr s := if s.toList.all Http.isVisible then some s else none
  builderError := "builder error"
  decodeError _ := "error decoding response body"

theorem plainHttp_documented : @Http.Documented plainHttp :=
  @Http.Documented.mk plainHttp (fun _ => rfl) (fun _ => rfl) (fun _ => rfl)

namespace QueryClient

open HttpQuery

/-- A name with an accent may be sent, and is not the name that is answered. -/
theorem own_name_iff_sample :
    (@Http.isHeaderValue plainHttp (authorization ⟨"","alice"⟩) = true ∧
      @extractSubject plainHttp (some (@Http.receivedValue plainHttp
        (authorization ⟨"","alice"⟩))) = ⟨"alice",[]⟩) ∧
      ¬ (@Http.isHeaderValue plainHttp (authorization ⟨"","josé"⟩) = true ∧
        @extractSubject plainHttp (some (@Http.receivedValue plainHttp
          (authorization ⟨"","josé"⟩))) = ⟨"josé",[]⟩) :=
  ⟨(@own_name_iff plainHttp plainHttp_documented ⟨"","alice"⟩).mpr ⟨by decide,'e',by decide⟩,
    fun h => absurd ((@own_name_iff plainHttp plainHttp_documented ⟨"","josé"⟩).mp h).1
      (by decide)⟩

/-- A service that denies a table to everybody, and a terminal whose user ends in a blank. -/
def sampleService : QueryService SampleArray where
  run _ _ := .error "AccessDenied: finance.accounts"
  queryId := .ofByte 4
  durationMs := 3
  catalog _ := ⟨.empty⟩
  rejection _ := ⟨.badRequest,""⟩

def sampleRequest : JsonValue :=
  QueryRequest.fields.object.serialize ⟨"SELECT * FROM finance.accounts",some "s1"⟩

def sampleAnswer : JsonValue :=
  ErrorResponse.fields.object.serialize ⟨"AccessDenied",some "AccessDenied: finance.accounts"⟩

@[reducible] def sampleJson : JsonText where
  fromStr text :=
    if text = sampleRequest.compact then some sampleRequest
    else if text = sampleAnswer.compact then some sampleAnswer
    else none
  toString := JsonValue.compact

def sampleNetwork : Network := fun _ req =>
  .ok (@QueryService.handleQuery _ _ plainHttp sampleJson sampleService
    ⟨req.authorization.map plainHttp.receivedValue,req.body⟩)

theorem query_answered_sample :
    @query plainHttp sampleJson ⟨"http://localhost:3000","bob "⟩ sampleNetwork
      "SELECT * FROM finance.accounts" "s1" =
      .error ("query failed (403 Forbidden): \x7b\"detail\":\"AccessDenied: finance.accounts\"," ++
        "\"error\":\"AccessDenied\"\x7d") := by
  have hrequest : sampleJson.fromStr sampleRequest.compact = some sampleRequest := if_pos rfl
  have hanswer : sampleJson.fromStr sampleAnswer.compact = some sampleAnswer := by
    have hne : sampleAnswer.compact ≠ sampleRequest.compact := by decide +kernel
    exact (if_neg hne).trans (if_pos rfl)
  exact @query_answered SampleArray _ plainHttp sampleJson plainHttp_documented
    ⟨"http://localhost:3000","bob "⟩ sampleNetwork sampleService (by decide) (fun _ _ => rfl)
    "SELECT * FROM finance.accounts" "s1" hrequest hanswer

end QueryClient
end Elan
