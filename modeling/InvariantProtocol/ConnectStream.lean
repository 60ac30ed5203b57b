import InvariantProtocol.ConnectErrors
/-! Server streaming over the Connect protocol in the Go runtime. The response writer never fails and
the context of the request is never done. -/
namespace InvariantProtocol.ConnectStream
open List ByteText JsonText ConnectErrors

/-- An error of a handler or of the stream; a context error is one that `errors.Is` finds to be
`context.DeadlineExceeded` or `context.Canceled`. -/
inductive GoError where
 | plain (message:Bytes)
 | status (st:Status)
 | context (deadline:Bool) (message:Bytes)

def GoError.contextStatus (deadline:Bool) (message:Bytes) : Status :=
 { code:=if deadline then 4 else 1,message }

def statusFromError : GoError → Status
 | .plain message=>{ code:=2,message }
 | .status st=>st
 | .context deadline message=>GoError.contextStatus deadline message

def normalizeContextError : GoError → GoError
 | .context deadline message=>.status (GoError.contextStatus deadline message)
 | err=>err

/-- `metadata.MD`, a map from keys to lists of values. -/
abbrev MD:=List (Bytes×List Bytes)

def appendValues {K V:Type} [DecidableEq K] (key:K) (values:List V) :
  List (K×List V) → List (K×List V)
 | []=>[(key,values)]
 | entry::md=>
  if entry.1=key then (key,entry.2++values)::md else entry::appendValues key values md

/-- `metadata.Join` -/
def join (mds:List MD) : MD :=
 mds.flatten.foldl (fun out entry=>appendValues entry.1 entry.2 out) []

/-- `unicode.ToLower`, as far as the result can be a letter of ASCII. -/
def lowerRune (c:Char) : Char :=
 if c.toNat=0x212A then 'k' else if c.toNat=0x130 then 'i' else c.toLower

def reservedPrefixes : List String :=
 ["grpc-","connect-","trailer-","invariant-internal-","x-invariant-internal-"]

def reservedKeys : List String :=
 ["content-length","content-type","content-encoding","transfer-encoding","accept-encoding",
  "connection","keep-alive","proxy-connection","te","trailer","upgrade","host"]

def reservedResponseMetadata (key:List Char) : Bool :=
 reservedPrefixes.any (fun start=>start.toList.isPrefixOf key) ||
  reservedKeys.any fun name=>name.toList=key

def validMetadataKey (key:List Char) : Bool :=
 !key.isEmpty && key.all fun c=>
  ('a' ≤ c && c ≤ 'z') || ('0' ≤ c && c ≤ '9') || c = '-' || c = '_' || c = '.'

def validASCIIMetadataValue (value:Bytes) : Bool:=value.all fun b=>0x20≤b && b≤0x7e

def metadataValue (key:List Char) (value:Bytes) : Option (List Char) :=
 if "-bin".toList.isSuffixOf key then some (encodeRaw value)
 else if validASCIIMetadataValue value then some (runes value)
 else none

def metadataFields (md:MD) : List (List Char×List Char) :=
 md.flatMap fun entry=>
  let key:=(runes entry.1).map lowerRune
  if reservedResponseMetadata key || !validMetadataKey key then []
  else entry.2.filterMap fun value=>(metadataValue key value).map fun v=>(key,v)

def connectEndStreamMetadata (md:MD) : List (List Char×List (List Char)) :=
 (metadataFields md).foldl (fun out field=>appendValues field.1 [field.2] out) []

def connectEndStreamFlag : UInt8:=2

def maxConnectControlEnvelope : ℕ:=2^20

def sizeBytes (size:ℕ) : Bytes :=
 [UInt8.ofNat (size / 2^24),UInt8.ofNat (size / 2^16),UInt8.ofNat (size / 2^8),
  UInt8.ofNat size]

def envelope (flags:UInt8) (payload:Bytes) : Bytes :=
 flags::sizeBytes payload.length++payload

def framingError (size:ℕ) : GoError :=
 .status { code:=8,message:=utf8 ("Connect envelope payload size ".toList ++
  (toString size).toList++" exceeds uint32 framing limit".toList) }

def writeConnectEnvelope (flags:UInt8) (payload:Bytes) : Except GoError Bytes :=
 if 2^32≤payload.length then .error (framingError payload.length)
 else .ok (envelope flags payload)

def endStream (streamErr:Option GoError) (trailer:MD) : Doc :=
 let encoded:=connectEndStreamMetadata trailer
 goMap ((match streamErr with
   | some err=>[("error".toList,connectErrorPayload (statusFromError err))]
   | none=>[]) ++
  if encoded.length > 0 then
   [("metadata".toList,goMap (encoded.map fun field=>(field.1,.array (field.2.map .string))))]
  else [])

def controlLimitError : Status :=
 { code:=8,message:=utf8 "Connect control envelope exceeds configured byte limit".toList }

def connectEndStreamPayload (streamErr:Option GoError) (trailer:MD) : Bytes :=
 let payload:=marshal (endStream streamErr trailer)
 if payload.length ≤ maxConnectControlEnvelope then payload
 else marshal (endStream (some (.status controlLimitError)) [])

section

/-- A `projectedServerStream` with the response it writes: the header fields, once they are
committed, and the body so far. -/
structure Stream where
 header : MD:=[]
 trailer : MD:=[]
 headerSent : Bool:=false
 sendErr : Option GoError:=none
 committed : Option (List (List Char×List Char)):=none
 body : Bytes:=[]

structure Endpoint (Msg:Type) where
 binary : Bool
 encode : Msg → Except Bytes Bytes
 maxStreamResponse : ℤ

inductive Op (Msg:Type) where
 | setHeader (md:MD)
 | sendHeader (md:MD)
 | setTrailer (md:MD)
 | sendMsg (msg:Msg)

def commit (s:Stream) : Stream :=
 match s.committed with
 | some _=>s
 | none=>{ s with committed:=some (metadataFields s.header) }

variable {Msg:Type} (entry:Endpoint Msg)
def responseLimitError : GoError :=
 .status { code:=8,message:=utf8 ("encoded stream response message exceeds ".toList ++
  (toString entry.maxStreamResponse).toList++" byte limit".toList) }

/-- The callback that `handleHTTPStream` passes to the stream. -/
def send (msg:Msg) (s:Stream) : Option GoError×Stream :=
 match entry.encode msg with
 | .error message=>(some (.plain (utf8 "marshal stream chunk: ".toList++message)),s)
 | .ok payload=>
  if entry.maxStreamResponse<payload.length then (some (responseLimitError entry),s)
  else
   let s:=commit s
   match writeConnectEnvelope 0 payload with
   | .error err=>(some err,s)
   | .ok written=>(none,{ s with body:=s.body++written })

def setHeader (md:MD) (s:Stream) : Option GoError×Stream :=
 if s.headerSent then (some (.plain (utf8 "grpc: cannot set header after SendHeader".toList)),s)
 else (none,{ s with header:=join [s.header,md] })

def sendHeader (md:MD) (s:Stream) : Option GoError×Stream :=
 if s.headerSent then (some (.plain (utf8 "grpc: SendHeader called multiple times".toList)),s)
 else (none,commit { s with header:=join [s.header,md],headerSent:=true })

def setTrailer (md:MD) (s:Stream) : Option GoError×Stream :=
 (none,{ s with trailer:=join [s.trailer,md] })

def sendMsg (msg:Msg) (s:Stream) : Option GoError×Stream :=
 match s.sendErr with
 | some err=>(some err,s)
 | none=>
  match send entry msg { s with headerSent:=true } with
  | (some err,s)=>(some err,{ s with sendErr:=some err })
  | (none,s)=>(none,s)

def step (op:Op Msg) (s:Stream) : Option GoError×Stream :=
 match op with
 | .setHeader md=>setHeader md s
 | .sendHeader md=>sendHeader md s
 | .setTrailer md=>setTrailer md s
 | .sendMsg msg=>sendMsg entry msg s

def run : List (Op Msg) → Stream → List (Op Msg×Option GoError)×Stream
 | [],s=>([],s)
 | op::ops,s=>
  ((op,(step entry op s).1)::(run ops (step entry op s).2).1,
   (run ops (step entry op s).2).2)

structure Response where
 contentType : String
 header : List (List Char×List Char)
 body : Bytes

def invokeGRPCStream (returned:Option GoError) (s:Stream) : Option GoError :=
 (returned.or s.sendErr).map normalizeContextError

def handleHTTPStream (ops:List (Op Msg)) (returned:Option GoError) : Response :=
 let s:=(run entry ops {}).2
 let streamErr:=invokeGRPCStream returned s
 let s:=commit s
 let payload:=connectEndStreamPayload streamErr s.trailer
 let written:=match writeConnectEnvelope connectEndStreamFlag payload with
  | .ok written=>written
  | .error _=>[]
 { contentType:=if entry.binary then "application/connect+proto" else "application/connect+json"
   header:=s.committed.getD []
   body:=s.body++written }
end

lemma keys_appendValues {K V:Type} [DecidableEq K] (key:K) (values:List V) (md:List (K×List V))
 (hky:(md.map Prod.fst).Nodup) : ((appendValues key values md).map Prod.fst).Nodup := by
 have hs:∀md : List (K×List V),∀k∈(appendValues key values md).map Prod.fst,
   k=key ∨ k∈md.map Prod.fst:=by
  intro md
  induction md with
  | nil=>simp [appendValues]
  | cons entry md ih=>
   intro k hk
   unfold appendValues at hk
   split_ifs at hk with heq
   · simp only [map_cons,mem_cons] at hk ⊢
     obtain rfl|hk:=hk
     · exact .inl rfl
     · exact .inr (.inr hk)
   · simp only [map_cons,mem_cons] at hk ⊢
     obtain rfl|hk:=hk
     · exact .inr (.inl rfl)
     · obtain h|h:=ih k hk
       · exact .inl h
       · exact .inr (.inr h)
 induction md with
 | nil=>simp [appendValues]
 | cons entry md ih=>
  rw [map_cons,nodup_cons] at hky
  unfold appendValues
  split_ifs with heq
  · rw [map_cons,nodup_cons,←heq]
    exact hky
  · rw [map_cons,nodup_cons]
    refine ⟨fun hm=>?_,ih hky.2⟩
    obtain h|h:=hs md _ hm
    · exact heq h
    · exact hky.1 h

lemma keys_foldl_appendValues (entries acc:MD) (hk:(acc.map Prod.fst).Nodup) :
 ((entries.foldl (fun out entry=>appendValues entry.1 entry.2 out) acc).map Prod.fst).Nodup := by
 induction entries generalizing acc with
 | nil=>exact hk
 | cons entry entries ih=>exact ih _ (keys_appendValues _ _ _ hk)

lemma appendValues_of_notMem {key:Bytes} {values:List Bytes} {md:MD} (h:key∉md.map Prod.fst) :
 appendValues key values md=md++[(key,values)] := by
 induction md with
 | nil=>rfl
 | cons entry md ih=>
  rw [map_cons,mem_cons,not_or] at h
  rw [appendValues,if_neg (Ne.symm h.1),ih h.2]
  rfl

lemma foldl_appendValues_of_nodup (entries acc:MD) (hk:((acc++entries).map Prod.fst).Nodup) :
 entries.foldl (fun out entry=>appendValues entry.1 entry.2 out) acc=acc++entries := by
 induction entries generalizing acc with
 | nil=>simp
 | cons entry entries ih=>
  have hn:entry.1∉acc.map Prod.fst:=by
   rw [map_append,map_cons] at hk
   intro hm
   exact (disjoint_of_nodup_append hk) hm mem_cons_self
  rw [foldl_cons,appendValues_of_notMem hn]
  rw [ih _ (by simpa using hk)]
  simp

lemma join_join (mds:List MD) (md:MD) : join [join mds,md]=join (mds++[md]) := by
 have hk:((join mds).map Prod.fst).Nodup:=keys_foldl_appendValues _ [] nodup_nil
 have hs:=foldl_appendValues_of_nodup (join mds) [] (by simpa using hk)
 rw [nil_append] at hs
 have hp:join [join mds,md] =
   md.foldl (fun out entry=>appendValues entry.1 entry.2 out) (join mds):=by
  rw [join]
  simp only [flatten_cons,flatten_nil,append_nil,foldl_append,hs]
 rw [hp,join,join]
 simp only [flatten_append,flatten_cons,flatten_nil,append_nil,foldl_append]

variable {Msg:Type}
def Op.commits : Op Msg → Bool
 | .sendHeader _ | .sendMsg _=>true
 | _=>false

def Op.isHeader : Op Msg → Bool
 | .setHeader _ | .sendHeader _=>true
 | _=>false

/-- What is passed to `SetHeader` up to the first `SendHeader` or `SendMsg`, and to that
`SendHeader`. -/
def leadingHeaders : List (Op Msg) → List MD
 | []=>[]
 | .setHeader md::ops=>md::leadingHeaders ops
 | .setTrailer _::ops=>leadingHeaders ops
 | .sendHeader md::_=>[md]
 | .sendMsg _::_=>[]

def trailers (ops:List (Op Msg)) : List MD :=
 ops.filterMap fun
  | .setTrailer md=>some md
  | _=>none

variable (entry:Endpoint Msg)
def sent (calls:List (Op Msg×Option GoError)) : List Bytes :=
 calls.filterMap fun
  | (.sendMsg msg,none)=>(entry.encode msg).toOption
  | _=>none

def firstSendError (calls:List (Op Msg×Option GoError)) : Option GoError :=
 calls.findSome? fun
  | (.sendMsg _,result)=>result
  | _=>none

lemma leadingHeaders_snoc (ops:List (Op Msg)) (op:Op Msg) : leadingHeaders (ops++[op]) =
  leadingHeaders ops++if ops.any Op.commits then [] else leadingHeaders [op] := by
 induction ops with
 | nil=>simp [leadingHeaders]
 | cons first ops ih=>
  cases first with
  | setHeader md=>simpa [leadingHeaders,Op.commits] using ih
  | setTrailer md=>simpa [leadingHeaders,Op.commits] using ih
  | sendHeader md=>simp [leadingHeaders,Op.commits]
  | sendMsg msg=>simp [leadingHeaders,Op.commits]

structure After (calls:List (Op Msg×Option GoError)) (s:Stream) : Prop where
 header : s.header=join (leadingHeaders (calls.map Prod.fst))
 trailer : s.trailer=join (trailers (calls.map Prod.fst))
 headerSent : s.headerSent=(calls.map Prod.fst).any Op.commits
 sendErr : s.sendErr=firstSendError calls
 committed : s.committed=none ∨
  s.headerSent=true ∧ s.committed=some (metadataFields s.header)
 body : s.body=(sent entry calls).flatMap (envelope 0)
 framed : ∀payload∈sent entry calls,payload.length<2^32

lemma after_nil : After entry [] {} where
 header:=rfl
 trailer:=rfl
 headerSent:=rfl
 sendErr:=rfl
 committed:=.inl rfl
 body:=rfl
 framed:=by simp [sent]

lemma sent_snoc (calls:List (Op Msg×Option GoError)) (call:Op Msg×Option GoError) :
 sent entry (calls++[call])=sent entry calls++sent entry [call] := filterMap_append

lemma firstSendError_snoc (calls:List (Op Msg×Option GoError)) (call:Op Msg×Option GoError) :
 firstSendError (calls++[call])=(firstSendError calls).or (firstSendError [call]) :=
 List.findSome?_append

lemma commits_of_firstSendError {calls:List (Op Msg×Option GoError)} {err:GoError}
 (h:firstSendError calls=some err) : (calls.map Prod.fst).any Op.commits=true := by
 obtain ⟨⟨op,result⟩,hm,hc⟩:=List.exists_of_findSome?_eq_some h
 rw [any_map,any_eq_true]
 refine ⟨(op,result),hm,?_⟩
 cases op with
 | sendMsg msg=>rfl
 | setHeader md | sendHeader md | setTrailer md=>cases hc

lemma send_cases (msg:Msg) (s:Stream) :
 (∃err,send entry msg s=(some err,s) ∨ send entry msg s=(some err,commit s)) ∨
 ∃payload,entry.encode msg=.ok payload ∧ payload.length<2^32 ∧
  send entry msg s=(none,{ commit s with body:=(commit s).body++envelope 0 payload }) := by
 unfold send
 cases entry.encode msg with
 | error message=>exact .inl ⟨_,.inl rfl⟩
 | ok payload=>
  dsimp only
  split_ifs with hl
  · exact .inl ⟨_,.inl rfl⟩
  · unfold writeConnectEnvelope
    split_ifs with hs
    · exact .inl ⟨_,.inr rfl⟩
    · exact .inr ⟨payload,rfl,by omega,rfl⟩

@[simp] lemma commit_header (s:Stream) : (commit s).header=s.header := by
 unfold commit
 split <;> rfl

@[simp] lemma commit_trailer (s:Stream) : (commit s).trailer=s.trailer := by
 unfold commit
 split <;> rfl

@[simp] lemma commit_headerSent (s:Stream) : (commit s).headerSent=s.headerSent := by
 unfold commit
 split <;> rfl

@[simp] lemma commit_sendErr (s:Stream) : (commit s).sendErr=s.sendErr := by
 unfold commit
 split <;> rfl

@[simp] lemma commit_body (s:Stream) : (commit s).body=s.body := by
 unfold commit
 split <;> rfl

lemma commit_committed {s:Stream} (h:s.committed=none ∨ s.committed=some (metadataFields s.header)) :
 (commit s).committed=some (metadataFields s.header) := by
 unfold commit
 obtain h|h:=h
 · simp [h]
 · simp [h]

variable {entry} {calls:List (Op Msg×Option GoError)} {s:Stream}
lemma sendMsg_of_sendErr {err:GoError} (h:s.sendErr=some err) (msg:Msg) :
 sendMsg entry msg s=(some err,s) := by
 unfold sendMsg
 rw [h]

/-- A first failure is kept, and headers are closed in any case. -/
theorem sendMsg_cases (h:s.sendErr=none) (msg:Msg) :
 (∃err s',(s'={ s with headerSent:=true } ∨ s'=commit { s with headerSent:=true }) ∧
  sendMsg entry msg s=(some err,{ s' with sendErr:=some err })) ∨
 ∃payload,entry.encode msg=.ok payload ∧ payload.length<2^32 ∧
  sendMsg entry msg s=(none,{ commit { s with headerSent:=true } with
   body:=(commit { s with headerSent:=true }).body++envelope 0 payload }) := by
 have hu:sendMsg entry msg s =
   match send entry msg { s with headerSent:=true } with
   | (some err,s)=>(some err,{ s with sendErr:=some err })
   | (none,s)=>(none,s):=by
  rw [sendMsg,h]
 rw [hu]
 obtain ⟨err,hf|hf⟩|⟨payload,hen,hs,hok⟩:=
  send_cases entry msg { s with headerSent:=true }
 · exact .inl ⟨err,_,.inl rfl,by rw [hf]⟩
 · exact .inl ⟨err,_,.inr rfl,by rw [hf]⟩
 · exact .inr ⟨payload,hen,hs,by rw [hok]⟩

section
variable (h:After entry calls s)
include h
lemma After.committed_header :
 s.committed=none ∨ s.committed=some (metadataFields s.header) :=
 h.committed.imp_right And.right

lemma After.uncommitted (hs:s.headerSent=false) : s.committed=none := by
 obtain hn|⟨ht,-⟩:=h.committed
 · exact hn
 · rw [hs] at ht
   cases ht

lemma After.snoc_other {op:Op Msg} {result:Option GoError}
 {s':Stream} (hop:∀msg,op≠.sendMsg msg)
 (hh:s'.header=join (leadingHeaders (calls.map Prod.fst++[op])))
 (ht:s'.trailer=join (trailers (calls.map Prod.fst++[op])))
 (hsn:s'.headerSent=(s.headerSent || op.commits)) (hs:s'.sendErr=s.sendErr)
 (hc:s'.committed=none ∨
  s'.headerSent=true ∧ s'.committed=some (metadataFields s'.header))
 (hb:s'.body=s.body) : After entry (calls++[(op,result)]) s' := by
 have hn:sent entry [(op,result)]=[] ∧ firstSendError [(op,result)]=none:=by
  cases op with
  | sendMsg msg=>exact absurd rfl (hop msg)
  | setHeader md | sendHeader md | setTrailer md=>exact ⟨rfl,rfl⟩
 exact
  { header:=by rw [hh,map_append];rfl
    trailer:=by rw [ht,map_append];rfl
    headerSent:=by simp [hsn,h.headerSent]
    sendErr:=by rw [hs,h.sendErr,firstSendError_snoc,hn.2,Option.or_none]
    committed:=hc
    body:=by rw [hb,h.body,sent_snoc,hn.1,append_nil]
    framed:=by rw [sent_snoc,hn.1,append_nil];exact h.framed }

lemma After.headers_closed (hs:s.headerSent=true) (op:Op Msg) :
 s.header=join (leadingHeaders (calls.map Prod.fst++[op])) := by
 rw [leadingHeaders_snoc,←h.headerSent,hs,if_pos rfl,append_nil,h.header]

lemma After.headers_open (hs:s.headerSent=false) (op:Op Msg) :
 join (leadingHeaders (calls.map Prod.fst++[op])) =
  join (leadingHeaders (calls.map Prod.fst)++leadingHeaders [op]) := by
 rw [leadingHeaders_snoc,←h.headerSent,hs]
 rfl

lemma after_setHeader (md:MD) (result:Option GoError) :
 After entry (calls++[(.setHeader md,result)]) (setHeader md s).2 := by
 have ht:s.trailer=join (trailers (calls.map Prod.fst++[.setHeader md])):=by
  simp [trailers,h.trailer]
 unfold setHeader
 split_ifs with hs
 · exact h.snoc_other (by simp) (h.headers_closed hs _) ht (by simp [Op.commits]) rfl
    h.committed rfl
 · have hs:s.headerSent=false:=by simpa using hs
   refine h.snoc_other (by simp) ?_ ht (by simp [Op.commits]) rfl (.inl (h.uncommitted hs)) rfl
   rw [h.headers_open hs,h.header,join_join]
   rfl

lemma after_sendHeader (md:MD) (result:Option GoError) :
 After entry (calls++[(.sendHeader md,result)]) (sendHeader md s).2 := by
 have ht:s.trailer=join (trailers (calls.map Prod.fst++[.sendHeader md])):=by
  simp [trailers,h.trailer]
 unfold sendHeader
 split_ifs with hs
 · exact h.snoc_other (by simp) (h.headers_closed hs _) ht (by simp [hs]) rfl
    h.committed rfl
 · have hs:s.headerSent=false:=by simpa using hs
   refine h.snoc_other (by simp) ?_ (by simpa using ht) (by simp [Op.commits]) (by simp) ?_
    (by simp)
   · rw [commit_header,h.headers_open hs,h.header,join_join]
     rfl
   · refine .inr ⟨by simp,?_⟩
     rw [commit_header]
     exact commit_committed (.inl (h.uncommitted hs))

lemma after_setTrailer (md:MD) (result:Option GoError) :
 After entry (calls++[(.setTrailer md,result)]) (setTrailer md s).2 := by
 refine h.snoc_other (by simp) ?_ ?_ (by simp [setTrailer,Op.commits]) rfl h.committed rfl
 · rw [leadingHeaders_snoc]
   simp [setTrailer,leadingHeaders,h.header]
 · simp only [setTrailer,trailers,h.trailer,join_join,filterMap_append,filterMap_cons,
    filterMap_nil]

/-- After a message no header is added, whether the message was sent or not. -/
theorem after_sendMsg (msg:Msg) :
 After entry (calls++[(.sendMsg msg,(sendMsg entry msg s).1)]) (sendMsg entry msg s).2 := by
 have ht (result:Option GoError) :
   s.trailer=join (trailers ((calls++[(Op.sendMsg msg,result)]).map Prod.fst)):=by
  simp [trailers,h.trailer]
 have hh (result:Option GoError) :
   s.header=join (leadingHeaders ((calls++[(Op.sendMsg msg,result)]).map Prod.fst)):=by
  rw [map_append,map_singleton,leadingHeaders_snoc]
  simp [leadingHeaders,h.header]
 cases hs : s.sendErr with
 | some err=>
  have hf:firstSendError calls=some err:=by rw [←h.sendErr,hs]
  rw [sendMsg_of_sendErr hs]
  exact
   { header:=hh _
     trailer:=ht _
     headerSent:=by simp [h.headerSent,commits_of_firstSendError hf]
     sendErr:=by rw [firstSendError_snoc,hf,hs];rfl
     committed:=h.committed
     body:=by simp [h.body,sent]
     framed:=by simpa [sent_snoc,sent] using h.framed }
 | none=>
  have hf:firstSendError calls=none:=by rw [←h.sendErr,hs]
  have hc:=@commit_committed { s with headerSent:=true } h.committed_header
  obtain ⟨err,s',hs',hfl⟩|⟨payload,hen,hsz,hok⟩:=sendMsg_cases hs msg
  · rw [hfl]
    have hk:s'.header=s.header ∧ s'.trailer=s.trailer ∧ s'.headerSent=true ∧
      s'.body=s.body ∧ (s'.committed=none ∨ s'.committed=some (metadataFields s.header)):=by
     obtain rfl|rfl:=hs'
     · exact ⟨rfl,rfl,rfl,rfl,h.committed_header⟩
     · exact ⟨by simp,by simp,by simp,by simp,.inr hc⟩
    obtain ⟨hsm,ht',hcl,hb,hw⟩:=hk
    exact
     { header:=by rw [hsm];exact hh _
       trailer:=by rw [ht'];exact ht _
       headerSent:=by simp [hcl,Op.commits]
       sendErr:=by rw [firstSendError_snoc,hf];rfl
       committed:=by rw [hsm];exact hw.imp_right fun hw=>⟨hcl,hw⟩
       body:=by simp [hb,h.body,sent]
       framed:=by simpa [sent_snoc,sent] using h.framed }
  · have ho:sent entry [(.sendMsg msg,none)]=[payload]:=by
     simp [sent,hen,Except.toOption]
    rw [hok]
    exact
     { header:=by rw [commit_header];exact hh _
       trailer:=by rw [commit_trailer];exact ht _
       headerSent:=by simp [Op.commits]
       sendErr:=by rw [commit_sendErr,firstSendError_snoc,hf];exact hs
       committed:=.inr ⟨by simp,by rw [commit_header];exact hc⟩
       body:=by simp [sent_snoc,ho,h.body]
       framed:=by
        intro p hp
        rw [sent_snoc,ho,mem_append,mem_singleton] at hp
        obtain hp|rfl:=hp
        · exact h.framed p hp
        · exact hsz }

lemma after_step (op:Op Msg) :
 After entry (calls++[(op,(step entry op s).1)]) (step entry op s).2 := by
 cases op with
 | setHeader md=>exact after_setHeader h md _
 | sendHeader md=>exact after_sendHeader h md _
 | setTrailer md=>exact after_setTrailer h md _
 | sendMsg msg=>exact after_sendMsg h msg

lemma after_run (ops:List (Op Msg)) :
 After entry (calls++(run entry ops s).1) (run entry ops s).2 := by
 induction ops generalizing calls s with
 | nil=>simpa [run] using h
 | cons op ops ih=>
  have hr:=ih (after_step h op)
  rw [append_assoc] at hr
  exact hr
end
end InvariantProtocol.ConnectStream
