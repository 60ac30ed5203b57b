import InvariantProtocol.JsonValue
import Mathlib.Data.List.Induction
/-! JSON-RPC messages in the Go runtime: `encoding/json` as far as it is used on them, parsing, and
dispatch. -/
namespace InvariantProtocol.GoMessages
open JsonValue

/-- The code point equals this lowercase letter under simple case folding. -/
def foldsTo (letter c:ℕ) : Bool :=
 c=letter || c+32=letter || (letter=115 && c=0x17F) || (letter=107 && c=0x212A)

def matchesField : Text → Text → Bool
 | [],[]=>true
 | letter::field,c::name=>foldsTo letter c && matchesField field name
 | _,_=>false

def rawField (members:Members) (field:Text) : Option Value :=
 members.foldl (fun current m=>if matchesField field m.1 then some m.2 else current) none

def storeString (field:Text) (current:Text) (m:Text×Value) : Option Text :=
 if matchesField field m.1 then
  match m.2 with
  | .string s=>some s
  | .null=>some current
  | _=>none
 else some current

/-- A field of type `string`; `none` is a value of another type among its members. -/
def stringField (members:Members) (field:Text) : Option Text :=
 members.foldlM (storeString field) []

def mcpJSONObject : Option Value → Bool
 | some (.object _)=>true
 | _=>false

/-- `json.Unmarshal` of a member, absent or not, into a Go string. -/
def decodesString : Option Value → Bool
 | some (.string _)=>true
 | some .null=>true
 | _=>false

section

def mcpMaxSafeInteger : ℤ:=2^53-1

def mcpIntegerValue : Value → Option ℤ
 | .number n=>
  if n.isInteger ∧ -mcpMaxSafeInteger≤n.integer ∧ n.integer ≤ mcpMaxSafeInteger then
   some n.integer
  else none
 | _=>none

def validMCPInteger (raw:Value) : Bool:=(mcpIntegerValue raw).isSome

def validMCPID : Value → Bool
 | .string _=>true
 | raw=>validMCPInteger raw

/-- The characters of a decoded Go string: a lone surrogate is replaced. -/
def goChars (s:Text) : List Char :=
 s.map fun n=>if n.isValidChar then Char.ofNat n else '\uFFFD'

def mcpIDKey : Value → Option Text
 | .string s=>some (text "string:"++(goChars s).map Char.toNat)
 | raw=>(mcpIntegerValue raw).map fun i=>text "integer:"++text (toString i)

def validMCPError : Value → Bool
 | .object fields=>
  ((get fields (text "code")).any fun code=>validMCPInteger code) &&
   decodesString (get fields (text "message"))
 | _=>false

def validMCPToolCallParams : Option Value → Bool
 | some (.object fields)=>
  decodesString (get fields (text "name")) &&
   (get fields (text "arguments")).all fun arguments=>arguments.isObject
 | _=>false

def validMCPClientInfo : Option Value → Bool
 | some (.object info)=>
  decodesString (get info (text "name")) && decodesString (get info (text "version"))
 | _=>false

def validMCPInitializeParams : Option Value → Bool
 | some (.object fields)=>
  decodesString (get fields (text "protocolVersion")) &&
   mcpJSONObject (get fields (text "capabilities")) &&
   validMCPClientInfo (get fields (text "clientInfo"))
 | _=>false

inductive Body (Result:Type) where
 | result (r:Result)
 | error (code:ℤ) (message:Text)

structure Response (Result:Type) where
 id : Value
 body : Body Result

structure Request where
 jsonrpc : Text
 id : Option Value
 method : Text
 params : Option Value

variable {Result:Type}
def mcpErr (id:Option Value) (code:ℤ) (message:Text) : Response Result :=
 ⟨id.getD .null,.error code message⟩

inductive Parsed (Result:Type) where
 | request (req:Request)
 | clientResponse
 | protocolError (response:Response Result)

def invalidRequest : Parsed Result:=.protocolError (mcpErr none (-32600) (text "Invalid Request"))

def unmarshalRequest (fields:Members) : Option Request:=do
 let jsonrpc ← stringField fields (text "jsonrpc")
 let method ← stringField fields (text "method")
 return { jsonrpc,id:=rawField fields (text "id"),method,params:=rawField fields (text "params") }

/-- The number of an id that is not a string, zero where it is no valid one. -/
def normalizeID : Value → Value
 | .string s=>.string s
 | raw=>.number (Number.ofInt ((mcpIntegerValue raw).getD 0))

def parseClientResponse (fields:Members) : Parsed Result :=
 match get fields (text "result"),get fields (text "error") with
 | some result,none=>
  if (get fields (text "id")).any validMCPID && result.isObject then .clientResponse
  else invalidRequest
 | none,some error=>
  if (get fields (text "id")).all validMCPID && validMCPError error then .clientResponse
  else invalidRequest
 | _,_=>invalidRequest

def parseRequest (fields:Members) (req:Request) : Parsed Result :=
 if (get fields (text "id")).all validMCPID then
  let hasID:=(get fields (text "id")).isSome
  let req:=if hasID then { req with id:=req.id.map normalizeID } else req
  if (get fields (text "params")).all Value.isObject ∧
    (req.method=text "tools/call" → validMCPToolCallParams (get fields (text "params"))) then
   .request req
  else if hasID then .protocolError (mcpErr req.id (-32602) (text "Invalid params"))
  else .request req
 else invalidRequest

/-- The document, or the message of the decoder that rejected it. -/
def parseMCPJSONRPC : Except Text Value → Parsed Result
 | .error message=>.protocolError (mcpErr none (-32700) (text "Parse error"++message))
 | .ok (.object fields)=>
  match get fields (text "jsonrpc") with
  | some (.string version)=>
   if version=text "2.0" then
    if (get fields (text "method")).isSome then
     match unmarshalRequest fields with
     | some req=>parseRequest fields req
     | none=>invalidRequest
    else parseClientResponse fields
   else invalidRequest
  | _=>invalidRequest
 | .ok _=>invalidRequest
end

section

/-- What dispatch needs of the server: its fixed results, its tools, and the texts of decode errors. -/
structure Server (Result:Type) where
 initialized : Result
 toolCatalog : Result
 pong : Result
 tools : Text → Option (Value → Result)
 decodeError : Option Value → Text

variable {Result:Type}
def callParams : Option Value → Option (Text×Value)
 | some (.object fields)=>do
  let name ← stringField fields (text "name")
  return (name,(rawField fields (text "arguments")).getD (.object []))
 | some .null=>some ([],.object [])
 | _=>none

def toolsCall (server:Server Result) (id:Value) (params:Option Value) : Response Result :=
 match callParams params with
 | none=>mcpErr (some id) (-32602) (text "Invalid params: "++server.decodeError params)
 | some (name,arguments)=>
  match server.tools name with
  | none=>mcpErr (some id) (-32602) (text "Unknown tool: "++name)
  | some tool=>⟨id,.result (tool arguments)⟩

def mcpDispatch (server:Server Result) (req:Request) : Option (Response Result) :=
 match req.id with
 | none=>none
 | some id=>
  if req.method=text "initialize" then
   if validMCPInitializeParams req.params then some ⟨id,.result server.initialized⟩
   else some (mcpErr (some id) (-32602) (text "Invalid params"))
  else if req.method=text "tools/list" then some ⟨id,.result server.toolCatalog⟩
  else if req.method=text "tools/call" then some (toolsCall server id req.params)
  else if req.method=text "ping" then some ⟨id,.result server.pong⟩
  else some (mcpErr (some id) (-32601) (text "Method not found: "++req.method))

def replies (server:Server Result) (data:Except Text Value) : List (Response Result) :=
 match parseMCPJSONRPC data with
 | .protocolError response=>[response]
 | .clientResponse=>[]
 | .request req=>(mcpDispatch server req).toList
end

section
variable {members:Members} {field:Text}
lemma rawField_snoc (members:Members) (m:Text×Value) (field:Text) : rawField (members++[m]) field =
  if matchesField field m.1 then some m.2 else rawField members field := by
 simp [rawField]

lemma rawField_eq_none : rawField members field=none ↔ ∀m∈members,matchesField field m.1=false := by
 induction members using List.reverseRecOn with
 | nil=>simp [rawField]
 | append_singleton members m ih=>
  rw [rawField_snoc]
  by_cases h : matchesField field m.1=true
  · rw [if_pos h]
    refine iff_of_false (by simp) fun ha=>?_
    rw [ha m (by simp)] at h
    cases h
  · simp [h,ih,or_imp,forall_and]

lemma storeString_isSome (current:Text) (m:Text×Value) : (∃s,storeString field current m=some s) ↔
  (matchesField field m.1=true → m.2.isString=true ∨ m.2.isNull=true) := by
 unfold storeString
 by_cases h : matchesField field m.1=true
 · obtain ⟨name,v⟩:=m
   cases v <;> simp_all [Value.isString,Value.isNull]
 · simp [h]

lemma foldlM_storeString (current:Text) : (∃s,members.foldlM (storeString field) current=some s) ↔
  ∀m∈members,matchesField field m.1=true → m.2.isString=true ∨ m.2.isNull=true := by
 induction members generalizing current with
 | nil=>simp
 | cons m members ih=>
  rw [List.forall_mem_cons,←storeString_isSome current m,List.foldlM_cons]
  cases hs : storeString field current m with
  | none=>simp
  | some s=>simpa using ih s

lemma stringField_isSome : (∃s,stringField members field=some s) ↔
  ∀m∈members,matchesField field m.1=true → m.2.isString=true ∨ m.2.isNull=true :=
 foldlM_storeString []
end

inductive Id where
 | string (s:Text)
 | integer (i:ℤ)
 deriving DecidableEq

def idValue : Value → Option Id
 | .string s=>some (.string s)
 | .number n=>if n.isInteger ∧ n.integer.natAbs≤2^53-1 then some (.integer n.integer) else none
 | _=>none

lemma mcpIntegerValue_number (n:Number) : mcpIntegerValue (.number n) =
  if n.isInteger ∧ n.integer.natAbs≤2^53-1 then some n.integer else none := by
 have hr:(-mcpMaxSafeInteger≤n.integer ∧ n.integer ≤ mcpMaxSafeInteger) ↔
   n.integer.natAbs≤2^53-1:=by
  unfold mcpMaxSafeInteger
  omega
 simp only [mcpIntegerValue,hr]

lemma validMCPID_eq (v:Value) : validMCPID v=(idValue v).isSome := by
 cases v with
 | number n=>
  simp only [validMCPID,validMCPInteger,mcpIntegerValue_number,idValue]
  split <;> rfl
 | _=>rfl

lemma idValue_normalizeID (v:Value) : idValue (normalizeID v)=some ((idValue v).getD (.integer 0)) := by
 cases v with
 | number n=>
  simp only [normalizeID,mcpIntegerValue_number,idValue]
  split
  · next h=>simp only [Option.getD_some,Number.isInteger_ofInt,Number.integer_ofInt,h.2,and_self,if_true]
  · simp
 | string s=>rfl
 | _=>simp [normalizeID,mcpIntegerValue,idValue]

variable {Result:Type} {server:Server Result} {fields:Members}
lemma toolsCall_id (id:Value) (params:Option Value) : (toolsCall server id params).id=id := by
 unfold toolsCall
 split
 · rfl
 · split <;> rfl

variable {req:Request} {v:Value}
lemma mcpDispatch_id (server:Server Result) {id:Value} (h:req.id=some id) :
 ∃r,mcpDispatch server req=some r ∧ r.id=id := by
 simp only [mcpDispatch,h]
 split_ifs
 · exact ⟨_,rfl,rfl⟩
 · exact ⟨_,rfl,rfl⟩
 · exact ⟨_,rfl,rfl⟩
 · exact ⟨_,rfl,toolsCall_id id _⟩
 · exact ⟨_,rfl,rfl⟩
 · exact ⟨_,rfl,rfl⟩

/-- The members stored into the string fields of `jsonRPCRequest` are strings or null. -/
def StringsDecode (fields:Members) : Prop :=
 ∀m∈fields,matchesField (text "jsonrpc") m.1=true ∨ matchesField (text "method") m.1=true →
  m.2.isString=true ∨ m.2.isNull=true

lemma unmarshalRequest_isSome : (∃req,unmarshalRequest fields=some req) ↔ StringsDecode fields := by
 have hversion:=@stringField_isSome fields (text "jsonrpc")
 have hmethod:=@stringField_isSome fields (text "method")
 have hs:StringsDecode fields ↔
   (∃s,stringField fields (text "jsonrpc")=some s) ∧
    ∃s,stringField fields (text "method")=some s:=by
  rw [hversion,hmethod]
  simp only [StringsDecode,or_imp]
  exact forall₂_and
 rw [hs]
 unfold unmarshalRequest
 cases stringField fields (text "jsonrpc") <;> cases stringField fields (text "method") <;> simp

lemma unmarshalRequest_id (h:unmarshalRequest fields=some req) : req.id=rawField fields (text "id") := by
 simp only [unmarshalRequest,Option.bind_eq_bind,Option.bind_eq_some_iff,Option.pure_def,Option.some.injEq] at h
 obtain ⟨_,-,_,-,rfl⟩:=h
 rfl

lemma replies_request (hversion:get fields (text "jsonrpc")=some (.string (text "2.0")))
 {method:Value} (hmethod:get fields (text "method")=some method) :
 replies server (.ok (.object fields)) =
  match unmarshalRequest fields with
  | some req=>match parseRequest fields req with
   | .protocolError response=>[response]
   | .clientResponse=>[]
   | .request req=>(mcpDispatch server req).toList
  | none=>[mcpErr none (-32600) (text "Invalid Request")] := by
 simp only [replies,parseMCPJSONRPC,hversion,hmethod,Option.isSome_some,if_true]
 cases unmarshalRequest fields <;> rfl

lemma parseRequest_without_id (h:get fields (text "id")=none) :
 (parseRequest fields req:Parsed Result)=.request req := by
 simp only [parseRequest,h,Option.all_none,Option.isSome_none,if_true,Bool.false_eq_true,if_false,ite_self]

lemma parseRequest_with_id {w:Value} (h:get fields (text "id")=some v) (hv:validMCPID v=true)
 (hr:req.id=some w) : (∃req',(parseRequest fields req:Parsed Result)=.request req' ∧
   req'.id=some (normalizeID w)) ∨
  (parseRequest fields req:Parsed Result) =
   .protocolError (mcpErr (some (normalizeID w)) (-32602) (text "Invalid params")) := by
 simp only [parseRequest,h,Option.all_some,hv,Option.isSome_some,if_true]
 split
 · exact .inl ⟨_,rfl,by simp [hr]⟩
 · exact .inr (by simp [hr])

def SoleID (fields:Members) (v:Value) : Prop :=
 fields.filter (fun m=>m.1=text "id")=[(text "id",v)]

lemma SoleID.get (h:SoleID fields v) : get fields (text "id")=some v := by
 have hmm:∀m,m∈fields ∧ m.1=text "id" ↔ m=(text "id",v):=by
  intro m
  have hmm:m∈fields.filter (fun m=>m.1=text "id") ↔ m=(text "id",v):=by
   rw [h,List.mem_singleton]
  rwa [List.mem_filter,decide_eq_true_iff] at hmm
 cases hg : JsonValue.get fields (text "id") with
 | none=>
  obtain ⟨hm,-⟩:=(hmm _).2 rfl
  exact absurd rfl (get_eq_none.1 hg _ hm)
 | some w=>
  have heq:=(hmm (text "id",w)).1 ⟨mem_of_get hg,rfl⟩
  rw [(Prod.mk.inj heq).2]

/-- No reply without a member `id`; with one, and a valid value, one reply under that id. -/
def RepliesToIDs (server:Server Result) (fields:Members) : Prop :=
 (get fields (text "id")=none → replies server (.ok (.object fields))=[]) ∧
  ∀v i,SoleID fields v → idValue v=some i →
   ∃r,replies server (.ok (.object fields))=[r] ∧ idValue r.id=some i

/-- The id the response carries, if the struct decode finds one. -/
def echoedID (fields:Members) : Option Id :=
 (rawField fields (text "id")).map fun w=>(idValue w).getD (.integer 0)

lemma matches_id_of_get (h:get fields (text "id")=some v) : ∃w,rawField fields (text "id")=some w := by
 cases hr : rawField fields (text "id") with
 | none=>
  have hs:matchesField (text "id") (text "id")=true:=by decide
  rw [rawField_eq_none.1 hr _ (mem_of_get h)] at hs
  cases hs
 | some w=>exact ⟨w,rfl⟩

section
variable (hversion:get fields (text "jsonrpc")=some (.string (text "2.0")))
 {method:Value} (hmethod:get fields (text "method")=some method)

include hversion hmethod

lemma replies_without_id (hid:get fields (text "id")=none) : replies server (.ok (.object fields))=[] ↔
  StringsDecode fields ∧ ∀m∈fields,matchesField (text "id") m.1=false := by
 rw [replies_request hversion hmethod,←unmarshalRequest_isSome,←rawField_eq_none]
 cases hre : unmarshalRequest fields with
 | none=>simp
 | some req=>
  simp only [parseRequest_without_id hid]
  rw [←unmarshalRequest_id hre]
  cases hrq : req.id with
  | none=>simp [mcpDispatch,hrq]
  | some id=>
   obtain ⟨r,hr,-⟩:=mcpDispatch_id server hrq
   simp [hr]

lemma replies_with_id {v:Value} {i:Id} (hid:get fields (text "id")=some v) (hv:idValue v=some i) (j:Id) :
 (∃r,replies server (.ok (.object fields))=[r] ∧ idValue r.id=some j) ↔
  StringsDecode fields ∧ echoedID fields=some j := by
 rw [replies_request hversion hmethod,←unmarshalRequest_isSome]
 cases hre : unmarshalRequest fields with
 | none=>simp [mcpErr,idValue]
 | some req=>
  obtain ⟨w,hw⟩:=matches_id_of_get hid
  have hvl:validMCPID v=true:=by simp [validMCPID_eq,hv]
  have hec:echoedID fields=idValue (normalizeID w):=by
   simp [echoedID,hw,idValue_normalizeID]
  rw [hec]
  have hrq:req.id=some w:=(unmarshalRequest_id hre).trans hw
  rcases @parseRequest_with_id Result fields req v w hid hvl hrq with
   ⟨req',hp,hr'⟩ | hp
  · obtain ⟨r,hr,hrd⟩:=mcpDispatch_id server hr'
    simp [hp,hr,hrd]
  · simp [hp,mcpErr]
end

/-- The Go endpoint replies to exactly the requests with an id, under that id, if and only if no
  member is taken for another by its case: the members stored as `jsonrpc` and `method` decode,
  and the last member stored as `id` is absent, or has the id of the member so named. -/
theorem replies_to_ids_iff (server:Server Result) {fields:Members} (method:Text)
  (hversion:get fields (text "jsonrpc")=some (.string (text "2.0")))
  (hmethod:get fields (text "method")=some (.string method)) : RepliesToIDs server fields ↔
   (get fields (text "id")=none →
    StringsDecode fields ∧ ∀m∈fields,matchesField (text "id") m.1=false) ∧
   ∀v i,SoleID fields v → idValue v=some i →
    StringsDecode fields ∧ echoedID fields=some i := by
 unfold RepliesToIDs
 apply and_congr
 · exact forall_congr' fun hid=>replies_without_id hversion hmethod hid
 · apply forall₂_congr
   intro v i
   apply forall₂_congr
   intro hs hv
   exact replies_with_id hversion hmethod hs.get hv i

def bareServer : Server Unit where
 initialized:=()
 toolCatalog:=()
 pong:=()
 tools:=fun _=>none
 decodeError:=fun _=>[]

def pingFields (rest:Members) : Members :=
 (text "jsonrpc",.string (text "2.0"))::(text "method",.string (text "ping"))::rest

theorem ping_replies : RepliesToIDs bareServer
  (pingFields [(text "id",.number { whole:=7 }),(text "iD2",.null)]) := by
 refine (replies_to_ids_iff bareServer (text "ping") rfl rfl).2 ⟨?_,?_⟩
 · intro hid
   cases hid
 · intro v i hs hv
   have hg:some (.number { whole:=7 })=some v:=hs.get
   cases hg
   cases hv
   refine ⟨?_,rfl⟩
   simp [StringsDecode,pingFields,matchesField,foldsTo,text,Value.isString]

theorem ping_upper_id_answered :
  get (pingFields [(text "ID",.number { whole:=1 })]) (text "jsonrpc") =
   some (.string (text "2.0")) ∧
  get (pingFields [(text "ID",.number { whole:=1 })]) (text "method") =
   some (.string (text "ping")) ∧
  get (pingFields [(text "ID",.number { whole:=1 })]) (text "id")=none ∧
  replies bareServer (.ok (.object (pingFields [(text "ID",.number { whole:=1 })]))) =
   [⟨.number { whole:=1 },.result ()⟩] ∧
  ¬RepliesToIDs bareServer (pingFields [(text "ID",.number { whole:=1 })]) := by
 refine ⟨rfl,rfl,rfl,rfl,fun h=>?_⟩
 have hn:=h.1 rfl
 cases hn
end InvariantProtocol.GoMessages
