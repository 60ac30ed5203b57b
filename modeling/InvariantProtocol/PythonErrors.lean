import InvariantProtocol.Binary64
import InvariantProtocol.ConnectErrors
import InvariantProtocol.GoResult
import InvariantProtocol.StatusCodes
/-! The error that the Python HTTP client makes of an error response. The `protobuf` package is a
parameter with the behaviour it documents. -/
namespace InvariantProtocol.PythonErrors
open List JsonValue JsonText ByteText StatusCodes Binary64

variable {carried:Bool}
inductive PyException where
 | valueError | typeError | unicodeEncodeError | overflowError | decodeError
 | serializeToJsonError | other

/-- `except TypeError, ValueError`; encoding errors are value errors. -/
def PyException.isTypeOrValueError : PyException → Bool
 | .valueError | .typeError | .unicodeEncodeError=>true
 | _=>false

abbrev PyResult (α:Type):=Except PyException α

def isSpace (n:ℕ) : Bool :=
 (0x09≤n && n≤0x0D) || (0x1C≤n && n≤0x20) || n=0x85 || n=0xA0 || n=0x1680 ||
  (0x2000≤n && n≤0x200A) || n=0x2028 || n=0x2029 || n=0x202F || n=0x205F || n=0x3000

def strip (s:Text) : Text:=((s.dropWhile isSpace).reverse.dropWhile isSpace).reverse

/-- `decimal` is the decimal digit of a code point in the Unicode character database. -/
def digitsOf (decimal:ℕ → Option (Fin 10)) : Text → Option (List (Fin 10))
 | []=>none
 | [n]=>(decimal n).map ([·])
 | n::95::rest=>do
  let d ← decimal n
  let ds ← digitsOf decimal rest
  some (d::ds)
 | n::rest=>do
  let d ← decimal n
  let ds ← digitsOf decimal rest
  some (d::ds)

def natOf (digits:List (Fin 10)) : ℕ:=digits.foldl (fun n d=>n*10+d.val) 0

/-- `int(..)` of a stripped text: an optional sign and at most 4300 digits, which single
underscores may part. `none` is a `ValueError`. -/
def parseInt (decimal:ℕ → Option (Fin 10)) (s:Text) : Option ℤ :=
 let (negative,body):=match s with
  | 45::rest=>(true,rest)
  | 43::rest=>(false,rest)
  | _=>(false,s)
 (digitsOf decimal body).bind fun digits=>
  if digits.length≤4300 then
   some (if negative then -(natOf digits:ℤ) else natOf digits)
  else none

inductive Message where
 | any (typeUrl:Text) (value:Bytes)
 | retryInfo (seconds nanos:ℕ)
 | errorInfo (reason domain:String) (metadata:List (String×String))
 | quotaFailure (subject description:String)

def maxDurationSeconds : ℕ:=315576000000

/-- The package `protobuf`, as far as it is used here and documented: string fields hold Unicode,
integer fields are checked for their range, and the JSON form of a duration ends with its range. -/
structure Protobuf (Dict:Type) where
 storeString : Text → PyResult Unit
 storeInt64 : ℕ → PyResult Unit
 messageToDict : Message → PyResult Dict
 pack : Message → Text×Bytes
 parseDict : Members → Option (Text×Bytes)
 storeString_ok : ∀s,isUnicode s=true → storeString s=.ok ()
 storeString_error : ∀s,isUnicode s=false → storeString s=.error .unicodeEncodeError
 storeInt64_ok : ∀n,n<2^63 → storeInt64 n=.ok ()
 storeInt64_error : ∀n,2^63≤n → storeInt64 n=.error .valueError
 duration_ok : ∀seconds nanos,seconds ≤ maxDurationSeconds → nanos<10^9 →
  ∃d,messageToDict (.retryInfo seconds nanos)=.ok d
 duration_error : ∀seconds nanos,maxDurationSeconds<seconds →
  messageToDict (.retryInfo seconds nanos)=.error .serializeToJsonError
 errorInfo_ok : ∀reason domain metadata,
  ∃d,messageToDict (.errorInfo reason domain metadata)=.ok d
 quotaFailure_ok : ∀subject description,
  ∃d,messageToDict (.quotaFailure subject description)=.ok d

section

/-- `NaN` and the infinities are floats to Python; no value below is read from a number. -/
def pythonDialect (maxDepth:ℕ) : Dialect where
 constants :=
  [("null".toList,.null),("true".toList,.bool true),("false".toList,.bool false),
   ("NaN".toList,.number { whole:=0,exponent:=some 0 }),
   ("Infinity".toList,.number { whole:=0,exponent:=some 0 }),
   ("-Infinity".toList,.number { whole:=0,exponent:=some 0 })]
 maxIntegerDigits:=some 4300
 maxDepth

/-- `json.loads(body.decode())`; `none` is any exception. -/
def loads (maxDepth:ℕ) (body:Bytes) : Option Value :=
 decodeUtf8 body >>= parse (pythonDialect maxDepth)

def grpcCodesByConnectName : List (Text×Code) :=
 Code.all.tail.map fun code=>(text code.connectName,code)

def grpcCodeFromConnectName : Option Value → Option Code
 | some (.string name)=>grpcCodesByConnectName.lookup name
 | _=>none

def grpcCodeFromHttpStatus : ℕ → Code
 | 400=>.internal
 | 401=>.unauthenticated
 | 403=>.permissionDenied
 | 404=>.unimplemented
 | 429 | 502 | 503 | 504=>.unavailable
 | _=>.unknown

/-- `base64.b64decode(encoded + padding, validate=True)` -/
def b64decode (encoded:Text) : Option Bytes :=
 if encoded.all (· < 128) then
  decodePadded (encoded.map Char.ofNat++replicate ((4-encoded.length % 4) % 4) '=')
 else none

def detailParts (detail:Members) : Option (Text×Bytes) :=
 match get detail (text "type"),get detail (text "value") with
 | some (.string typeName),some (.string encoded)=>
  if typeName=[] then none else (b64decode encoded).map fun value=>(typeName,value)
 | _,_=>none

def typeUrl (typeName:Text) : Text:=text "type.googleapis.com/"++typeName

inductive Detail where
 | message (m:Message)
 | dict (members:Members)

variable {Dict:Type} (lib:Protobuf Dict)
def decodeConnectDetail (detail:Members) : PyResult (Option Message) :=
 match detailParts detail with
 | none=>.ok none
 | some (typeName,value)=>do
  lib.storeString (typeUrl typeName)
  return some (.any (typeUrl typeName) value)

def readDetail (detail:Members) : PyResult Detail:=do
 match ← decodeConnectDetail lib detail with
 | some m=>return .message m
 | none=>return .dict detail

def detailDicts (payload:Members) : List Members :=
 match get payload (text "details") with
 | some (.array items)=>items.filterMap fun
  | .object members=>some members
  | _=>none
 | _=>[]
end

section

/-- A time span below the range of durations, as all dates of the type `datetime` are apart. -/
structure Delay where
 seconds : ℕ
 nanos : ℕ
 inRange : seconds ≤ maxDurationSeconds
 nanosBound : nanos<10^9

/-- What a client knows of its surroundings: the recursion limit of the interpreter, the character
database, and how long it is to a date in a header by the clock. -/
structure Runtime where
 maxDepth : ℕ
 decimal : ℕ → Option (Fin 10)
 remaining : Text → Option Delay

variable (rt:Runtime)
def delayOfSeconds (seconds:ℤ) : PyResult (Option (ℕ×ℕ)) :=
 match floatOf (max 0 seconds).toNat with
 | some delay=>.ok (some (delay,0))
 | none=>.error .overflowError

/-- Seconds and nanoseconds of the float that is returned. -/
def parseRetryAfterSeconds (value:Option Text) : PyResult (Option (ℕ×ℕ)) :=
 match value with
 | none=>.ok none
 | some value=>
  let trimmed:=strip value
  if trimmed=[] then .ok none
  else match parseInt rt.decimal trimmed with
   | some seconds=>delayOfSeconds seconds
   | none=>.ok ((rt.remaining trimmed).map fun delay=>(delay.seconds,delay.nanos))

def hasRetryInfo (details:List Detail) : Bool :=
 details.any fun
  | .message (.retryInfo _ _)=>true
  | .message (.any url _)=>(text "/google.rpc.RetryInfo").isSuffixOf url
  | .message _=>false
  | .dict members=>
   match get members (text "@type") with
   | some (.string s)=>s=text "type.googleapis.com/google.rpc.RetryInfo"
   | _=>false

variable {Dict:Type} (lib:Protobuf Dict)
def retryInfo (delay:ℕ×ℕ) : PyResult Message:=do
 lib.storeInt64 delay.1
 return .retryInfo delay.1 delay.2
end

section

inductive Payload (Dict:Type) where
 | rendered (d:Dict)
 | raw (typeUrl:Text) (value:List Char)
 | dict (members:Members)

structure InvariantError (Dict:Type) where
 code : Code
 message : Text
 details : List (Payload Dict)
 detailAnys : List (Text×Bytes)

def b64encode (bs:Bytes) : List Char :=
 encodeRaw bs++replicate ((3-bs.length % 3) % 3) '='

variable {Dict:Type} (lib:Protobuf Dict)
def anyToPayload (m:Message) : PyResult (Payload Dict) :=
 match lib.messageToDict m with
 | .ok d=>.ok (.rendered d)
 | .error e=>
  if e.isTypeOrValueError then .ok (.raw (lib.pack m).1 (b64encode (lib.pack m).2)) else .error e

def detailToPayload : Detail → PyResult (Payload Dict)
 | .message m=>anyToPayload lib m
 | .dict members=>.ok (.dict members)

def detailToAny : Detail → Option (Text×Bytes)
 | .message m=>some (lib.pack m)
 | .dict members=>lib.parseDict members

def invariantError (code:Code) (message:Text) (details:List Detail) :
  PyResult (InvariantError Dict):=do
 let payload ← details.mapM (detailToPayload lib)
 return { code,message,details:=payload,detailAnys:=details.filterMap (detailToAny lib) }
end

section

structure Request where
 methodPath : String
 url : String
 truncated : Bool

def errorBodySnippetBytes : ℕ:=2048

def bodySnippet (body:Bytes) : String :=
 String.ofList (decodeLossy (body.take errorBodySnippetBytes))

def errorInfo (statusCode:ℕ) (body:Bytes) (request:Request) : Message :=
 .errorInfo ("HTTP_STATUS_"++toString statusCode) "invariant.http_client"
  [("method_path",request.methodPath),("url",request.url),
   ("http_status",toString statusCode),("body_snippet",bodySnippet body),
   ("body_truncated",
    if request.truncated ∨ errorBodySnippetBytes<body.length then "true" else "false")]

def quotaFailure (statusCode:ℕ) (request:Request) : Message :=
 .quotaFailure request.methodPath ("HTTP "++toString statusCode++" from upstream")

structure Envelope where
 code : Code
 message : Text
 details : List Members

def envelope (statusCode:ℕ) (payload:Option Value) : Envelope :=
 let fallback : Envelope :=
  { code:=grpcCodeFromHttpStatus statusCode
    message:=text "HTTP "++text (toString statusCode)
    details:=[] }
 match payload with
 | some (.object members)=>
  match grpcCodeFromConnectName (get members (text "code")) with
  | none=>fallback
  | some code=>
   { code
     message:=match get members (text "message") with
      | some (.string s)=>if s=[] then fallback.message else s
      | _=>fallback.message
     details:=detailDicts members }
 | _=>fallback

variable {Dict:Type} (rt:Runtime) (lib:Protobuf Dict)
/-- The detail appended for a delay, unless the details have one. -/
def retryDetails (details:List Detail) (delay:Option (ℕ×ℕ)) : PyResult (List Detail) :=
 match delay with
 | none=>.ok []
 | some delay=>
  if hasRetryInfo details then .ok []
  else do
   let m ← retryInfo lib delay
   return [.message m]

def httpError (statusCode:ℕ) (body:Bytes) (retryAfter:Option Text) (request:Request) :
  PyResult (InvariantError Dict):=do
 let env:=envelope statusCode (loads rt.maxDepth body)
 let details ← env.details.mapM (readDetail lib)
 let delay ← parseRetryAfterSeconds rt retryAfter
 let retry ← retryDetails lib details delay
 let quota:=if env.code=.resourceExhausted then
  [Detail.message (quotaFailure statusCode request)] else []
 invariantError lib env.code env.message
  (details++retry++[.message (errorInfo statusCode body request)]++quota)
end

section

def Succeeds {α:Type} (r:PyResult α) : Prop := ∃a,r=.ok a

variable {Dict:Type} (lib:Protobuf Dict)
def Shown (m:Message) : Prop :=
 ∀e,lib.messageToDict m=.error e → e.isTypeOrValueError=true

lemma succeeds_anyToPayload (m:Message) : Succeeds (anyToPayload lib m) ↔ Shown lib m := by
 unfold anyToPayload Shown
 cases h : lib.messageToDict m with
 | ok d=>simp [Succeeds]
 | error e=>
  by_cases he : e.isTypeOrValueError=true
  · simp [Succeeds,he]
  · simp [Succeeds,he]

lemma shown_of_ok {m:Message} (h:∃d,lib.messageToDict m=.ok d) : Shown lib m := by
 obtain ⟨d,hd⟩:=h
 intro e he
 rw [hd] at he
 cases he

lemma shown_retryInfo {seconds nanos:ℕ} (hn:nanos<10^9) :
 Shown lib (.retryInfo seconds nanos) ↔ seconds ≤ maxDurationSeconds := by
 constructor
 · intro h
   by_contra hlt
   exact absurd (h _ (lib.duration_error seconds nanos (by omega))) (by decide)
 · intro h
   exact shown_of_ok lib (lib.duration_ok seconds nanos h hn)

lemma succeeds_invariantError (code:Code) (message:Text) (details:List Detail) :
 Succeeds (invariantError lib code message details) ↔
  ∀d∈details,Succeeds (detailToPayload lib d) := by
 unfold Succeeds invariantError
 rw [←GoResult.exists_mapM_ok]
 constructor
 · rintro ⟨err,h⟩
   obtain ⟨payload,hp,-⟩:=(GoResult.bind_ok _ _ _).1 h
   exact ⟨payload,hp⟩
 · rintro ⟨payload,hp⟩
   exact ⟨_,by rw [hp];rfl⟩

variable {details:List Detail} {err:InvariantError Dict}
lemma code_of_invariantError {code:Code} {message:Text}
 (h:invariantError lib code message details=.ok err) : err.code=code := by
 obtain ⟨payload,-,her⟩:=(GoResult.bind_ok _ _ _).1 h
 cases her
 rfl

def shownDetail (members:Members) : Detail :=
 match detailParts members with
 | none=>.dict members
 | some (typeName,value)=>.message (.any (typeUrl typeName) value)

def TypeStored (members:Members) : Prop :=
 ∀typeName value,detailParts members=some (typeName,value) → isUnicode typeName=true

lemma isUnicode_typeUrl (typeName:Text) : isUnicode (typeUrl typeName)=isUnicode typeName := by
 have hh:=isUnicode_text "type.googleapis.com/"
 unfold isUnicode typeUrl at *
 rw [all_append,hh,Bool.true_and]

lemma readDetail_ok {members:Members} {d:Detail} :
 readDetail lib members=.ok d ↔ TypeStored members ∧ d=shownDetail members := by
 unfold readDetail decodeConnectDetail TypeStored shownDetail
 cases hp : detailParts members with
 | none=>
  simp only [reduceCtorEq,false_implies,implies_true,true_and]
  exact ⟨fun h=>by cases h;rfl,fun h=>by rw [h];rfl⟩
 | some parts=>
  obtain ⟨typeName,value⟩:=parts
  have hst:(∀t v,some (typeName,value)=some (t,v) → isUnicode t=true) ↔
    isUnicode typeName=true:=by
   constructor
   · intro h
     exact h typeName value rfl
   · intro h t v heq
     cases heq
     exact h
  rw [hst]
  cases hu : isUnicode typeName with
  | true=>
   have hs:=lib.storeString_ok (typeUrl typeName) (by rw [isUnicode_typeUrl,hu])
   simp only [hs,true_and]
   exact ⟨fun h=>by cases h;rfl,fun h=>by rw [h];rfl⟩
  | false=>
   have hs:=lib.storeString_error (typeUrl typeName) (by rw [isUnicode_typeUrl,hu])
   simp only [hs,Bool.false_eq_true,false_and,iff_false]
   intro h
   cases h

lemma mapM_readDetail_ok {dicts:List Members} : dicts.mapM (readDetail lib)=.ok details ↔
  (∀members∈dicts,TypeStored members) ∧ details=dicts.map shownDetail := by
 rw [GoResult.mapM_ok]
 simp only [readDetail_ok]
 induction dicts generalizing details with
 | nil=>simp
 | cons members dicts ih=>
  rw [forall_mem_cons,map_cons]
  constructor
  · rintro (_|⟨⟨hs,rfl⟩,hr⟩)
    obtain ⟨hd,rfl⟩:=ih.1 hr
    exact ⟨⟨hs,hd⟩,rfl⟩
  · rintro ⟨⟨hs,hd⟩,rfl⟩
    exact .cons ⟨hs,rfl⟩ (ih.2 ⟨hd,rfl⟩)

def DetailShown (members:Members) : Prop :=
 ∀typeName value,detailParts members=some (typeName,value) →
  Shown lib (.any (typeUrl typeName) value)

lemma succeeds_shownDetail (members:Members) :
 Succeeds (detailToPayload lib (shownDetail members)) ↔ DetailShown lib members := by
 unfold DetailShown shownDetail
 cases hp : detailParts members with
 | none=>simp [detailToPayload,Succeeds]
 | some parts=>
  rw [detailToPayload,succeeds_anyToPayload]
  constructor
  · intro h typeName value heq
    cases heq
    exact h
  · intro h
    exact h _ _ rfl

/-- The detail is a `RetryInfo`, in Connect's shape or in the JSON of `Any`. -/
def carriesRetryInfo (members:Members) : Bool:=hasRetryInfo [shownDetail members]

lemma hasRetryInfo_map (dicts:List Members) :
 hasRetryInfo (dicts.map shownDetail)=dicts.any carriesRetryInfo := by
 induction dicts with
 | nil=>rfl
 | cons members dicts ih=>
  have hc:hasRetryInfo (shownDetail members::dicts.map shownDetail) =
    (hasRetryInfo [shownDetail members] || hasRetryInfo (dicts.map shownDetail)):=by
   simp [hasRetryInfo]
  rw [map_cons,hc,ih,any_cons,carriesRetryInfo]

variable (rt:Runtime)
/-- A number of seconds in the header fits a duration, or is not looked at. -/
def RetryAccepted (carried:Bool) (retryAfter:Option Text) : Prop :=
 ∀value seconds,retryAfter=some value → parseInt rt.decimal (strip value)=some seconds →
  seconds ≤ maxDurationSeconds ∨ (carried=true ∧ seconds<floatOverflow)

lemma succeeds_retryInfo {seconds nanos:ℕ} (hnn:nanos<10^9) (hn:hasRetryInfo details=false) :
 (∃retry,retryDetails lib details (some (seconds,nanos))=.ok retry ∧
  ∀d∈retry,Succeeds (detailToPayload lib d)) ↔ seconds ≤ maxDurationSeconds := by
 have hs:Succeeds (detailToPayload lib (.message (.retryInfo seconds nanos))) ↔
   seconds ≤ maxDurationSeconds:=by
  rw [detailToPayload,succeeds_anyToPayload,shown_retryInfo lib hnn]
 unfold retryDetails retryInfo
 by_cases hrn : seconds<2^63
 · simp only [hn,lib.storeInt64_ok seconds hrn]
   rw [←hs]
   constructor
   · rintro ⟨retry,hr,h⟩
     cases hr
     exact h _ (mem_singleton_self _)
   · intro h
     refine ⟨_,rfl,fun d hd=>?_⟩
     rw [mem_singleton.1 hd]
     exact h
 · simp only [hn,lib.storeInt64_error seconds (by omega)]
   constructor
   · rintro ⟨retry,hr,-⟩
     cases hr
   · intro h
     have hm:maxDurationSeconds<2^63:=by decide
     omega

lemma succeeds_noRetry {delay:Option (ℕ×ℕ)} (h:delay=none ∨ hasRetryInfo details=true) :
 ∃retry,retryDetails lib details delay=.ok retry ∧
  ∀d∈retry,Succeeds (detailToPayload lib d) := by
 refine ⟨[],?_,by simp⟩
 unfold retryDetails
 cases delay with
 | none=>rfl
 | some delay=>
  obtain h|h:=h
  · cases h
  · simp [h]

lemma retryAccepted_of_none {value:Text} (h:parseInt rt.decimal (strip value)=none) :
 RetryAccepted rt carried (some value) := by
 intro value' seconds heq hs
 cases heq
 rw [h] at hs
 cases hs

lemma retryAccepted_some {value:Text} {seconds:ℤ} (h:parseInt rt.decimal (strip value)=some seconds) :
 RetryAccepted rt carried (some value) ↔
  seconds ≤ maxDurationSeconds ∨ (carried=true ∧ seconds<floatOverflow) := by
 constructor
 · intro ha
   exact ha value seconds rfl h
 · intro ha value' seconds' heq hs
   cases heq
   rw [h] at hs
   cases hs
   exact ha

lemma maxDurationSeconds_lt_floatOverflow : maxDurationSeconds<floatOverflow := by
 by_contra h
 have hn:=floatOf_eq_none.2 (Nat.le_of_not_lt h)
 rw [floatOf_of_lt (by decide)] at hn
 cases hn

lemma retry_seconds_iff (details:List Detail) (seconds:ℤ) : (∃delay,delayOfSeconds seconds=.ok delay ∧
  ∃retry,retryDetails lib details delay=.ok retry ∧
   ∀d∈retry,Succeeds (detailToPayload lib d)) ↔
  seconds ≤ maxDurationSeconds ∨ (hasRetryInfo details=true ∧ seconds<floatOverflow) := by
 have hl:=maxDurationSeconds_lt_floatOverflow
 unfold delayOfSeconds
 cases hfl : floatOf (max 0 seconds).toNat with
 | none=>
  have ho:=floatOf_eq_none.1 hfl
  constructor
  · rintro ⟨delay,hd,-⟩
    cases hd
  · rintro (h|⟨-,h⟩)
    · omega
    · omega
 | some f=>
  have hrn:(max 0 seconds).toNat<floatOverflow:=by
   by_contra h
   rw [floatOf_eq_none.2 (Nat.le_of_not_lt h)] at hfl
   cases hfl
  cases hc : hasRetryInfo details with
  | true=>
   constructor
   · intro _
     exact .inr ⟨rfl,by omega⟩
   · intro _
     exact ⟨_,rfl,succeeds_noRetry lib (.inr hc)⟩
  | false=>
   have hex:f ≤ maxDurationSeconds ↔ (max 0 seconds).toNat ≤ maxDurationSeconds:=by
    constructor
    · intro h
      by_contra hlt
      exact absurd (lt_of_floatOf (by decide) hfl (Nat.lt_of_not_le hlt)) (by omega)
    · intro h
      have hs:maxDurationSeconds<2^53:=by decide
      rw [floatOf_of_lt (by omega)] at hfl
      cases hfl
      exact h
   constructor
   · rintro ⟨delay,hd,hr⟩
     cases hd
     have hf:=hex.1 ((succeeds_retryInfo lib (by decide) hc).1 hr)
     exact .inl (by omega)
   · rintro (h|⟨h,-⟩)
     · exact ⟨_,rfl,(succeeds_retryInfo lib (by decide) hc).2 (hex.2 (by omega))⟩
     · cases h

lemma retry_accepted_iff (details:List Detail) (retryAfter:Option Text) :
 (∃delay,parseRetryAfterSeconds rt retryAfter=.ok delay ∧
  ∃retry,retryDetails lib details delay=.ok retry ∧
   ∀d∈retry,Succeeds (detailToPayload lib d)) ↔
  RetryAccepted rt (hasRetryInfo details) retryAfter := by
 cases retryAfter with
 | none=>
  constructor
  · intro _ value seconds h
    cases h
  · intro _
    exact ⟨none,rfl,succeeds_noRetry lib (.inl rfl)⟩
 | some value=>
  unfold parseRetryAfterSeconds
  dsimp only
  split_ifs with ht
  · have hi:parseInt rt.decimal (strip value)=none:=by
     rw [ht]
     rfl
    exact ⟨fun _=>retryAccepted_of_none rt hi,
     fun _=>⟨none,rfl,succeeds_noRetry lib (.inl rfl)⟩⟩
  · cases hi : parseInt rt.decimal (strip value) with
    | none=>
     refine ⟨fun _=>retryAccepted_of_none rt hi,fun _=>⟨_,rfl,?_⟩⟩
     cases hr : rt.remaining (strip value) with
     | none=>exact succeeds_noRetry lib (.inl rfl)
     | some delay=>
      cases hc : hasRetryInfo details with
      | true=>exact succeeds_noRetry lib (.inr hc)
      | false=>exact (succeeds_retryInfo lib delay.nanosBound hc).2 delay.inRange
    | some seconds=>
     rw [retryAccepted_some rt hi]
     exact retry_seconds_iff lib details seconds

def Names (payload:Option Value) (code:Code) : Prop :=
 code≠.ok ∧ ∃members,payload=some (.object members) ∧
  get members (text "code")=some (.string (text code.connectName))

/-- The code the body names, and otherwise the one of the HTTP status. -/
def CodeOf (statusCode:ℕ) (payload:Option Value) (code:Code) : Prop :=
 (∀named,Names payload named → code=named) ∧
 ((∀named,¬ Names payload named) → code=grpcCodeFromHttpStatus statusCode)

lemma grpcCodesByConnectName_lookup {name:Text} {code:Code} :
 grpcCodesByConnectName.lookup name=some code ↔ code≠.ok ∧ name=text code.connectName := by
 constructor
 · intro h
   obtain ⟨c,hc,hp⟩:=mem_map.1 (ListRelations.mem_of_lookup h)
   cases hp
   refine ⟨?_,rfl⟩
   rintro rfl
   exact absurd hc (by decide)
 · rintro ⟨hok,rfl⟩
   cases code <;> first | exact absurd rfl hok | decide

lemma grpcCodeFromConnectName_eq_some {members:Members} {code:Code} :
 grpcCodeFromConnectName (get members (text "code"))=some code ↔
  Names (some (.object members)) code := by
 unfold Names
 constructor
 · intro h
   cases hc : get members (text "code") with
   | none=>
    rw [hc] at h
    cases h
   | some v=>
    rw [hc] at h
    cases v with
    | string name=>
     obtain ⟨hok,rfl⟩:=grpcCodesByConnectName_lookup.1 h
     exact ⟨hok,members,rfl,hc⟩
    | null | bool | number | array | object=>cases h
 · rintro ⟨hok,_,heq,hc⟩
   cases heq
   rw [hc]
   exact grpcCodesByConnectName_lookup.2 ⟨hok,rfl⟩

lemma codeOf_envelope (statusCode:ℕ) (payload:Option Value) :
 CodeOf statusCode payload (envelope statusCode payload).code := by
 have hf (h:∀named,¬ Names payload named) :
   CodeOf statusCode payload (grpcCodeFromHttpStatus statusCode):=
  ⟨fun named hn=>absurd hn (h named),fun _=>rfl⟩
 have ho (h:∀members,payload≠some (.object members)) (named:Code) :
   ¬ Names payload named:=by
  rintro ⟨-,members,heq,-⟩
  exact h members heq
 cases payload with
 | none=>exact hf (ho (by simp))
 | some v=>
  cases v with
  | object members=>
   unfold envelope
   dsimp only
   cases hc : grpcCodeFromConnectName (get members (text "code")) with
   | none=>
    apply hf
    intro named hn
    rw [grpcCodeFromConnectName_eq_some.2 hn] at hc
    cases hc
   | some code=>
    refine ⟨fun named hn=>?_,fun h=>?_⟩
    · rw [grpcCodeFromConnectName_eq_some.2 hn] at hc
      exact (Option.some.inj hc).symm
    · exact absurd (grpcCodeFromConnectName_eq_some.1 hc) (h code)
  | null | bool | number | string | array=>exact hf (ho (by simp))

variable (statusCode:ℕ) (body:Bytes) (retryAfter:Option Text) (request:Request)
/-- `_http_error` returns, with the code that the response stands for. -/
def Returns : Prop :=
 ∃err,httpError rt lib statusCode body retryAfter request=.ok err ∧
  CodeOf statusCode (loads rt.maxDepth body) err.code

lemma shown_appended (d:Detail) (h:d∈[Detail.message (errorInfo statusCode body request)] ++
  if (envelope statusCode (loads rt.maxDepth body)).code=.resourceExhausted then
   [Detail.message (quotaFailure statusCode request)] else []) : Succeeds (detailToPayload lib d) := by
 obtain h|h:=mem_append.1 h
 · rw [mem_singleton.1 h,detailToPayload,succeeds_anyToPayload]
   exact shown_of_ok lib (lib.errorInfo_ok _ _ _)
 · split_ifs at h
   · rw [mem_singleton.1 h,detailToPayload,succeeds_anyToPayload]
     exact shown_of_ok lib (lib.quotaFailure_ok _ _)
   · cases h

lemma httpError_ok : httpError rt lib statusCode body retryAfter request=.ok err ↔
  ∃details,(envelope statusCode (loads rt.maxDepth body)).details.mapM (readDetail lib) =
    .ok details ∧
   ∃delay,parseRetryAfterSeconds rt retryAfter=.ok delay ∧
    ∃retry,retryDetails lib details delay=.ok retry ∧
     invariantError lib (envelope statusCode (loads rt.maxDepth body)).code
      (envelope statusCode (loads rt.maxDepth body)).message
      (details++retry++[.message (errorInfo statusCode body request)] ++
       if (envelope statusCode (loads rt.maxDepth body)).code=.resourceExhausted then
        [Detail.message (quotaFailure statusCode request)] else [])=.ok err := by
 unfold httpError
 simp only [GoResult.bind_ok]

lemma succeeds_httpError : Succeeds (httpError rt lib statusCode body retryAfter request) ↔
 (∀members∈(envelope statusCode (loads rt.maxDepth body)).details,
  TypeStored members ∧ DetailShown lib members) ∧
 RetryAccepted rt
  ((envelope statusCode (loads rt.maxDepth body)).details.any carriesRetryInfo) retryAfter := by
 have hap:=shown_appended lib rt statusCode body request
 generalize hdc : (envelope statusCode (loads rt.maxDepth body)).details=dicts
 rw [←hasRetryInfo_map,←retry_accepted_iff lib rt]
 constructor
 · rintro ⟨err,her⟩
   obtain ⟨details,hdt,delay,hdl,retry,hr,hb⟩:=
    (httpError_ok lib rt statusCode body retryAfter request).1 her
   rw [hdc] at hdt
   obtain ⟨hs,rfl⟩:=(mapM_readDetail_ok lib).1 hdt
   have hal:=(succeeds_invariantError lib _ _ _).1 ⟨err,hb⟩
   refine ⟨fun members hm=>⟨hs members hm,?_⟩,
    delay,hdl,retry,hr,fun d hd=>hal d (by simp [hd])⟩
   rw [←succeeds_shownDetail]
   exact hal _ (by simp [mem_map_of_mem hm])
 · rintro ⟨ha,delay,hdl,retry,hr,hsh⟩
   have hdt:=(mapM_readDetail_ok lib).2
    ⟨fun members hm=>(ha members hm).1,rfl⟩
   have hal:∀d∈dicts.map shownDetail++retry ++
     [Detail.message (errorInfo statusCode body request)] ++
      (if (envelope statusCode (loads rt.maxDepth body)).code=.resourceExhausted then
       [Detail.message (quotaFailure statusCode request)] else []),
     Succeeds (detailToPayload lib d):=by
    intro d hd
    rw [append_assoc] at hd
    obtain hd|hd:=mem_append.1 hd
    · obtain hd|hd:=mem_append.1 hd
      · obtain ⟨members,hm,rfl⟩:=mem_map.1 hd
        exact (succeeds_shownDetail lib members).2 (ha members hm).2
      · exact hsh d hd
    · exact hap d hd
   obtain ⟨err,hb⟩:=(succeeds_invariantError lib _ _ _).2 hal
   exact ⟨err,(httpError_ok lib rt statusCode body retryAfter request).2
    ⟨_,by rw [hdc];exact hdt,delay,hdl,retry,hr,hb⟩⟩

theorem http_error_returns_iff : Returns lib rt statusCode body retryAfter request ↔
  (∀members∈(envelope statusCode (loads rt.maxDepth body)).details,
   TypeStored members ∧ DetailShown lib members) ∧
  RetryAccepted rt
   ((envelope statusCode (loads rt.maxDepth body)).details.any carriesRetryInfo) retryAfter := by
 rw [← succeeds_httpError lib rt statusCode body retryAfter request]
 constructor
 · rintro ⟨err,her,-⟩
   exact ⟨err,her⟩
 · rintro ⟨err,her⟩
   obtain ⟨_,-,_,-,_,-,hb⟩ :=
    (httpError_ok lib rt statusCode body retryAfter request).1 her
   refine ⟨err,her,?_⟩
   rw [code_of_invariantError lib hb]
   exact codeOf_envelope statusCode _
end

def asciiDecimal (n:ℕ) : Option (Fin 10) :=
 if 48≤n ∧ n≤57 then some (Fin.ofNat 10 (n-48)) else none

def plainRuntime : Runtime where
 maxDepth:=1000
 decimal:=asciiDecimal
 remaining:=fun _=>none

/-- Of the registered types only `ErrorInfo` is looked into, and only for the tag 31 of no wire
type. -/
def plainProtobuf : Protobuf Unit where
 storeString:=fun s=>if isUnicode s then .ok () else .error .unicodeEncodeError
 storeInt64:=fun n=>if n<2^63 then .ok () else .error .valueError
 messageToDict:=fun
  | .any url value=>
   if url=text "type.googleapis.com/google.rpc.ErrorInfo" ∧ value=[255] then
    .error .decodeError
   else .error .typeError
  | .retryInfo seconds _=>
   if seconds ≤ maxDurationSeconds then .ok () else .error .serializeToJsonError
  | _=>.ok ()
 pack:=fun
  | .any url value=>(url,value)
  | _=>([],[])
 parseDict:=fun _=>none
 storeString_ok:=fun s h=>by simp [h]
 storeString_error:=fun s h=>by simp [h]
 storeInt64_ok:=fun n h=>if_pos h
 storeInt64_error:=fun n h=>if_neg (by omega)
 duration_ok:=fun seconds nanos h _=>⟨(),if_pos h⟩
 duration_error:=fun seconds nanos h=>if_neg (by omega)
 errorInfo_ok:=fun _ _ _=>⟨(),rfl⟩
 quotaFailure_ok:=fun _ _=>⟨(),rfl⟩

def plainRequest : Request where
 methodPath := "/books.v1.Books/Get"
 url := "http://h/books"
 truncated:=false

lemma loads_marshal {maxDepth:ℕ} {d:Doc} (hd:d.depth ≤ maxDepth) :
 loads maxDepth (ConnectErrors.marshal d)=some d.value := by
 unfold loads ConnectErrors.marshal
 rw [decodeUtf8_utf8]
 exact ConnectErrors.undone_escape.parse_print _ d hd

lemma retryAccepted_text (value:String) (seconds:ℕ)
 (h:parseInt asciiDecimal (strip (text value))=some (seconds:ℤ)) :
 RetryAccepted plainRuntime carried (some (text value)) ↔
  seconds ≤ maxDurationSeconds ∨ (carried=true ∧ seconds<floatOverflow) := by
 rw [retryAccepted_some plainRuntime h]
 simp only [Int.ofNat_le,Int.ofNat_lt]

def undecodableBody : Bytes:=ConnectErrors.marshal (.object
 [("code".toList,.string "internal".toList),
  ("details".toList,.array [.object
   [("type".toList,.string "google.rpc.ErrorInfo".toList),
    ("value".toList,.string "/w".toList)]])])

lemma undecodableBody_details : (envelope 500 (loads plainRuntime.maxDepth undecodableBody)).details =
  [[(text "type",.string (text "google.rpc.ErrorInfo")),
   (text "value",.string (text "/w"))]] := by
 rw [undecodableBody,loads_marshal (by decide)]
 rfl

/-- A delay that no duration holds, and bytes that are not a message of their type, leave
`_http_error` as other exceptions. -/
theorem long_delay_and_bad_detail_raise :
  ¬ Returns plainProtobuf plainRuntime 503 [] (some (text "99999999999999999999")) plainRequest ∧
  ¬ Returns plainProtobuf plainRuntime 500 undecodableBody none plainRequest := by
 constructor
 · rintro ⟨err,her,-⟩
   have ha:=((succeeds_httpError _ _ _ _ _ _).1 ⟨err,her⟩).2
   rw [retryAccepted_text _ 99999999999999999999 (by decide)] at ha
   obtain h|⟨h,-⟩:=ha
   · exact absurd h (by decide)
   · exact absurd h (by decide)
 · rintro ⟨err,her,-⟩
   have hs:=((succeeds_httpError _ _ _ _ _ _).1 ⟨err,her⟩).1
   rw [undecodableBody_details] at hs
   have hd:=(hs _ (mem_singleton_self _)).2 (text "google.rpc.ErrorInfo") [255] rfl
   exact absurd (hd .decodeError rfl) (by decide)

theorem short_delay_returns : Returns plainProtobuf plainRuntime 503 [] (some (text "5")) plainRequest := by
 have hd:(envelope 503 (loads plainRuntime.maxDepth [])).details=[]:=rfl
 apply (http_error_returns_iff plainProtobuf plainRuntime 503 [] (some (text "5")) plainRequest).2
 constructor
 · rw [hd]
   intro members hm
   cases hm
 · exact (retryAccepted_text "5" 5 (by decide)).2 (.inl (by decide))
end InvariantProtocol.PythonErrors
