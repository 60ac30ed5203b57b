import InvariantProtocol.ByteText
import InvariantProtocol.GoMessages
import InvariantProtocol.JsonText
import Mathlib.Data.Char
import Mathlib.Data.List.Lex
import Mathlib.Data.List.Sort
/-! Connect errors in the Go runtime: the JSON the server writes for a gRPC status and the status the
client makes of a response. Go strings are byte strings. -/
namespace InvariantProtocol.ConnectErrors
open JsonValue JsonText ByteText GoMessages
open List hiding le_trans

/-- The names of `google.rpc.Code`, by number. -/
def codeNames : List String :=
 ["OK","CANCELLED","UNKNOWN","INVALID_ARGUMENT","DEADLINE_EXCEEDED","NOT_FOUND",
  "ALREADY_EXISTS","PERMISSION_DENIED","RESOURCE_EXHAUSTED","FAILED_PRECONDITION","ABORTED",
  "OUT_OF_RANGE","UNIMPLEMENTED","INTERNAL","UNAVAILABLE","DATA_LOSS","UNAUTHENTICATED"]

/-- `String` of a generated enumeration: a number without a name is written in decimal. -/
def codeString (code:ℕ) : List Char:=(codeNames.getD code (toString code)).toList

def grpcCodeName (code:ℕ) : List Char :=
 if code=1 then "canceled".toList
 else if "Code(".toList.isPrefixOf (codeString code) then "unknown".toList
 else (codeString code).map Char.toLower

def connectCodeFromName (name:List Char) : Option ℕ :=
 (range' 1 16).find? fun i=>grpcCodeName i=name

def grpcCodeFromHTTPStatus (statusCode:ℤ) : ℕ :=
 match statusCode with
 | 400=>13
 | 404=>12
 | 403=>7
 | 429 | 502 | 503 | 504=>14
 | 401=>16
 | _=>2

structure Detail where
 typeUrl : Bytes
 value : Bytes

structure Status where
 code : ℕ
 message : Bytes
 details : List Detail:=[]

/-- A `map[string]any`, which is written in the order of its keys. -/
def goMap (members:List (List Char×Doc)) : Doc :=
 .object (members.insertionSort fun m m' => m.1 ≤ m'.1)

def typeName (typeUrl:Bytes) : Bytes:=(typeUrl.reverse.takeWhile (· ≠ 47)).reverse

def connectStatusDetail (detail:Detail) : Doc :=
 goMap [("type".toList,.string (runes (typeName detail.typeUrl))),
  ("value".toList,.string (encodeRaw detail.value))]

def connectStatusDetails (st:Status) : List Doc:=st.details.map connectStatusDetail

def connectErrorPayload (st:Status) : Doc :=
 let details:=connectStatusDetails st
 goMap ([("code".toList,.string (grpcCodeName st.code)),
  ("message".toList,.string (runes st.message))] ++
  if details.length > 0 then [("details".toList,.array details)] else [])

def hexChar (n:ℕ) : Char:=Char.ofNat (if n<10 then 48+n else 87+n)

def unicodeEscape (n:ℕ) : List Char :=
 ['\\','u',hexChar (n / 4096),hexChar (n / 256 % 16),hexChar (n / 16 % 16),hexChar (n % 16)]

/-- How `json.Marshal` writes a character, with the escapes that make it safe in HTML. -/
def escape (c:Char) : List Char :=
 if c = '"' ∨ c = '\\' then ['\\',c]
 else if c = '\x08' then ['\\','b']
 else if c = '\x0c' then ['\\','f']
 else if c = '\n' then ['\\','n']
 else if c = '\r' then ['\\','r']
 else if c = '\t' then ['\\','t']
 else if c.toNat<0x20 ∨ c = '<' ∨ c = '>' ∨ c = '&' ∨ c.toNat=0x2028 ∨ c.toNat=0x2029 then
  unicodeEscape c.toNat
 else [c]

def marshal (payload:Doc) : Bytes:=utf8 (payload.print escape)

def goDialect : Dialect:={ maxDepth:=10000 }

/-- The type and the value of a detail; members store over what the element held before. -/
def storeDetail (current:Text×Text) : Value → Option (Text×Text)
 | .null=>some current
 | .object members=>do
  let type ← members.foldlM (storeString (text "type")) current.1
  let value ← members.foldlM (storeString (text "value")) current.2
  some (type,value)
 | _=>none

def storeItems : List (Text×Text) → List Value → Option (List (Text×Text))
 | _,[]=>some []
 | current,v::items=>do
  let detail ← storeDetail (current.headD ([],[])) v
  let details ← storeItems current.tail items
  some (detail::details)

def storeDetails (current:List (Text×Text)) (m:Text×Value) :
  Option (List (Text×Text)) :=
 if matchesField (text "details") m.1 then
  match m.2 with
  | .array items=>storeItems current items
  | .null=>some []
  | _=>none
 else some current

structure Envelope where
 code : Text:=[]
 message : Text:=[]
 details : List (Text×Text):=[]

def storeEnvelope : Value → Option Envelope
 | .null=>some {}
 | .object members=>do
  let code ← stringField members (text "code")
  let message ← stringField members (text "message")
  let details ← members.foldlM storeDetails []
  some { code,message,details }
 | _=>none

/-- `json.Unmarshal` into the envelope; `none` is any error of it. -/
def unmarshalEnvelope (body:Bytes) : Option Envelope :=
 parse goDialect (runes body) >>= storeEnvelope

/-- Go's base64 decoders pass over line ends. -/
def withoutLines (s:List Char) : List Char:=s.filter fun c=>c ≠ '\n' && c ≠ '\r'

def decodeDetail (detail:Text×Text) : Option Detail :=
 if detail.1=[] then none
 else
  let encoded:=withoutLines (goChars detail.2)
  ((decodeRaw encoded).or (decodePadded encoded)).map fun value=>
   { typeUrl:=utf8 ("type.googleapis.com/".toList++goChars detail.1),value }

def statusErr (st:Status) : Option Status:=if st.code=0 then none else some st

def httpClientError (statusCode:ℤ) (body:Bytes) : Option Status :=
 let fallback : Status :=
  { code:=grpcCodeFromHTTPStatus statusCode
    message:=utf8 ("HTTP ".toList++(toString statusCode).toList) }
 let st : Status :=
  match unmarshalEnvelope body with
  | none=>fallback
  | some payload=>
   match connectCodeFromName (goChars payload.code) with
   | none=>fallback
   | some code=>
    { code
      message:=if payload.message=[] then fallback.message else utf8 (goChars payload.message)
      details:=payload.details.filterMap decodeDetail }
 statusErr { st with code:=if st.code=0 then 2 else st.code }

lemma hexValue_hexChar {n:ℕ} (h:n<16) : hexValue (hexChar n)=some n := by
 have ha:∀k : Fin 16,hexValue (hexChar k)=some k.val:=by decide
 exact ha ⟨n,h⟩

lemma readHex_unicodeEscape {n:ℕ} (h:n<65536) (rest:List Char) :
 readUnit (unicodeEscape n++rest)=some (.escaped n,rest) := by
 have h3:hexValue (hexChar (n / 4096))=some (n / 4096):=hexValue_hexChar (by omega)
 have h2:hexValue (hexChar (n / 256 % 16))=some (n / 256 % 16):=hexValue_hexChar (by omega)
 have h1:hexValue (hexChar (n / 16 % 16))=some (n / 16 % 16):=hexValue_hexChar (by omega)
 have h0:hexValue (hexChar (n % 16))=some (n % 16):=hexValue_hexChar (by omega)
 have hvalue:((n / 4096*16+n / 256 % 16)*16+n / 16 % 16)*16+n % 16=n:=by omega
 simp [unicodeEscape,readUnit,readHex,h3,h2,h1,h0,hvalue]

lemma readUnit_plain {c:Char} (hc:c ≠ '\\') (hge:¬ c.toNat<0x20) (rest:List Char) :
 readUnit (c::rest)=some (.char c,rest) := by
 unfold readUnit
 split
 · rename_i heq
   exact absurd (List.cons.inj heq).1 hc
 · rename_i heq
   exact absurd (List.cons.inj heq).1 hc
 · rename_i heq
   obtain ⟨rfl,rfl⟩:=List.cons.inj heq
   rw [if_neg hge]
 · rename_i heq
   cases heq

lemma undone_escape : Undone escape where
 starts:=by
  intro c
  unfold escape
  by_cases hq : c = '"'
  · simp [hq]
  · split_ifs <;> simp [unicodeEscape,hq]
 reads:=by
  intro c rest
  unfold escape
  split_ifs with h1 h2 h3 h4 h5 h6 h7
  · obtain rfl|rfl:=h1
    · exact ⟨.char '"',rfl,rfl⟩
    · exact ⟨.char '\\',rfl,rfl⟩
  · exact ⟨.char c,by rw [h2];rfl,rfl⟩
  · exact ⟨.char c,by rw [h3];rfl,rfl⟩
  · exact ⟨.char c,by rw [h4];rfl,rfl⟩
  · exact ⟨.char c,by rw [h5];rfl,rfl⟩
  · exact ⟨.char c,by rw [h6];rfl,rfl⟩
  · have hlt:c.toNat<65536:=by
     obtain h|rfl|rfl|rfl|h|h:=h7
     · omega
     · decide
     · decide
     · decide
     · omega
     · omega
    exact ⟨.escaped c.toNat,readHex_unicodeEscape hlt rest,rfl⟩
  · simp only [not_or] at h1 h7
    exact ⟨.char c,readUnit_plain h1.2 h7.1 rest,rfl⟩

@[simp] lemma goChars_toNat (cs:List Char) : goChars (cs.map Char.toNat)=cs := by
 unfold goChars
 rw [map_map]
 conv_rhs=>rw [←map_id cs]
 apply map_congr_left
 intro c _
 have hv:c.toNat.isValidChar:=c.valid
 simp [hv,Char.ofNat_toNat]

lemma withoutLines_encodeRaw (bs:Bytes) : withoutLines (encodeRaw bs)=encodeRaw bs := by
 apply List.filter_eq_self.2
 intro c hc
 have hd:=mem_encodeRaw hc
 by_contra h
 have hline:c = '\n' ∨ c = '\r':=by
  simp only [Bool.and_eq_true,decide_eq_true_eq,not_and_or,not_not] at h
  exact h
 obtain rfl|rfl:=hline
 · exact absurd hd (by decide)
 · exact absurd hd (by decide)

lemma typeName_utf8 (host name:List Char) (hn : '/' ∉ name) :
 typeName (utf8 (host ++ '/' :: name))=utf8 name := by
 have hnt:∀b∈(utf8 name).reverse,decide (b≠47)=true:=by
  intro b hb
  obtain ⟨c,hc,hbc⟩:=List.mem_flatMap.1 (List.mem_reverse.1 hb)
  apply decide_eq_true
  rintro rfl
  have hs:c = '/' := Char.ext (UInt32.toNat_inj.1 (toNat_of_mem_encodeChar hbc (by decide)))
  exact hn (hs ▸ hc)
 have hs:String.utf8EncodeChar '/' = [47]:=by decide
 rw [typeName,utf8_append,utf8_cons,hs,reverse_append,singleton_append,reverse_cons,
  append_assoc,takeWhile_append_of_pos hnt]
 simp

lemma connectStatusDetail_eq (detail:Detail) : connectStatusDetail detail =
 .object [("type".toList,.string (runes (typeName detail.typeUrl))),
  ("value".toList,.string (encodeRaw detail.value))] := by
 rfl

lemma connectErrorPayload_eq (st:Status) : connectErrorPayload st =
 .object ([("code".toList,.string (grpcCodeName st.code))] ++ (if (connectStatusDetails st).length > 0 then
   [("details".toList,.array (connectStatusDetails st))] else []) ++
  [("message".toList,.string (runes st.message))]) := by
 unfold connectErrorPayload
 dsimp only
 split_ifs
 · rfl
 · rfl

def storedDetail (detail:Detail) : Text×Text :=
 ((runes (typeName detail.typeUrl)).map Char.toNat,(encodeRaw detail.value).map Char.toNat)

lemma storeDetail_value (detail:Detail) :
 storeDetail ([],[]) (connectStatusDetail detail).value=some (storedDetail detail) := by
 rw [connectStatusDetail_eq]
 rfl

lemma storeItems_values (details:List Detail) :
 storeItems [] (values (details.map connectStatusDetail))=some (details.map storedDetail) := by
 induction details with
 | nil=>rfl
 | cons detail details ih=>
  rw [map_cons,values,storeItems]
  simp only [headD_nil,tail_nil]
  rw [storeDetail_value,ih]
  rfl

lemma storeEnvelope_payload (st:Status) : storeEnvelope (connectErrorPayload st).value =
 some { code:=(grpcCodeName st.code).map Char.toNat
        message:=(runes st.message).map Char.toNat
        details:=st.details.map storedDetail } := by
 rw [connectErrorPayload_eq]
 split_ifs with h
 · let members : Members:=
    [(text "code",.string ((grpcCodeName st.code).map Char.toNat)),
     (text "details",.array (values (connectStatusDetails st))),
     (text "message",.string ((runes st.message).map Char.toNat))]
   have hdt:members.foldlM storeDetails []=some (st.details.map storedDetail):=by
    have hi:storeDetails [] (text "details",.array (values (connectStatusDetails st))) =
      some (st.details.map storedDetail):=storeItems_values st.details
    have hs (v:Value) (current:List (Text×Text)) :
      storeDetails current (text "code",v)=some current ∧
       storeDetails current (text "message",v)=some current:=⟨rfl,rfl⟩
    simp only [members,foldlM_cons,foldlM_nil,(hs _ _).1,(hs _ _).2,Option.bind_eq_bind,
     Option.bind_some,hi]
    rfl
   change storeEnvelope (.object members)=_
   rw [storeEnvelope,hdt]
   rfl
 · have hnil:st.details=[]:=by
    cases hd : st.details with
    | nil=>rfl
    | cons d ds=>simp [connectStatusDetails,hd] at h
   rw [hnil]
   rfl

lemma depth_connectStatusDetails (details:List Detail) :
 itemsDepth (details.map connectStatusDetail)≤1 := by
 induction details with
 | nil=>exact Nat.zero_le 1
 | cons detail details ih=>
  rw [map_cons,itemsDepth,connectStatusDetail_eq]
  exact Nat.max_le.2 ⟨le_rfl,ih⟩

lemma depth_connectErrorPayload (st:Status) : (connectErrorPayload st).depth≤3 := by
 have hd:=depth_connectStatusDetails st.details
 rw [connectErrorPayload_eq]
 split_ifs
 · simp only [cons_append,nil_append,Doc.depth,membersDepth,connectStatusDetails]
   omega
 · simp only [cons_append,nil_append,Doc.depth,membersDepth]
   omega

lemma unmarshalEnvelope_marshal (st:Status) :
 unmarshalEnvelope (marshal (connectErrorPayload st)) =
  some { code:=(grpcCodeName st.code).map Char.toNat
         message:=(runes st.message).map Char.toNat
         details:=st.details.map storedDetail } := by
 have hd:(connectErrorPayload st).depth≤goDialect.maxDepth:=
  le_trans (depth_connectErrorPayload st) (by decide)
 unfold unmarshalEnvelope marshal
 rw [runes_utf8,undone_escape.parse_print goDialect _ hd]
 exact storeEnvelope_payload st

example : (connectErrorPayload { code:=5,message:=utf8 "no <b>".toList }).print escape =
  "\x7b\"code\":\"not_found\",\"message\":\"no \\u003cb\\u003e\"\x7d".toList := by decide

lemma connectCodeFromName_grpcCodeName {code:ℕ} (h:1≤code ∧ code≤16) :
 connectCodeFromName (grpcCodeName code)=some code := by
 have ha:∀k : Fin 16,connectCodeFromName (grpcCodeName (k+1))=some (k.val+1):=by
  decide
 have hc:=ha ⟨code-1,by omega⟩
 simpa [Nat.sub_add_cancel h.1] using hc

/-- A status whose texts are UTF-8 and whose details have the type URLs that `anypb` makes. -/
structure Encodable (st:Status) : Prop where
 code : 1 ≤ st.code ∧ st.code≤16
 message : ∃message : List Char,message≠[] ∧ st.message=utf8 message
 details : ∀detail∈st.details,∃name : List Char,name≠[] ∧ '/' ∉ name ∧
  detail.typeUrl=utf8 ("type.googleapis.com/".toList++name)

lemma decodeDetail_storedDetail {detail:Detail} {name:List Char} (hne:name≠[])
 (hn : '/' ∉ name) (hu:detail.typeUrl=utf8 ("type.googleapis.com/".toList++name)) :
 decodeDetail (storedDetail detail)=some detail := by
 have ht:typeName detail.typeUrl=utf8 name:=by
  have hs:"type.googleapis.com/".toList="type.googleapis.com".toList++['/']:=by simp
  rw [hu,hs,append_assoc,singleton_append,typeName_utf8 _ name hn]
 unfold decodeDetail storedDetail
 rw [ht,runes_utf8,if_neg (by simpa using hne)]
 simp only [goChars_toNat,withoutLines_encodeRaw,decodeRaw_encodeRaw,Option.some_or,Option.map_some,←hu]

lemma filterMap_storedDetail {details:List Detail}
 (h:∀detail∈details,∃name : List Char,name≠[] ∧ '/' ∉ name ∧
  detail.typeUrl=utf8 ("type.googleapis.com/".toList++name)) :
 (details.map storedDetail).filterMap decodeDetail=details := by
 induction details with
 | nil=>rfl
 | cons detail details ih=>
  obtain ⟨⟨name,hne,hn,hu⟩,hd⟩:=List.forall_mem_cons.1 h
  rw [map_cons,filterMap_cons,decodeDetail_storedDetail hne hn hu]
  exact congrArg (detail :: ·) (ih hd)

lemma httpClientError_marshal (statusCode:ℤ) {st:Status} (h:Encodable st) :
 httpClientError statusCode (marshal (connectErrorPayload st))=some st := by
 obtain ⟨message,hne,hm⟩:=h.message
 have hc:st.code≠0:=by
  have:=h.code
  omega
 unfold httpClientError
 rw [unmarshalEnvelope_marshal]
 simp only [goChars_toNat,connectCodeFromName_grpcCodeName h.code,filterMap_storedDetail h.details,
  if_neg hc]
 rw [hm,runes_utf8,if_neg (by simpa using hne),←hm]
 exact if_neg hc

lemma httpClientError_code (statusCode:ℤ) (body:Bytes) :
 ∃st,httpClientError statusCode body=some st ∧ st.code≠0 := by
 have her (st:Status) :
   statusErr { st with code:=if st.code=0 then 2 else st.code } =
    some { st with code:=if st.code=0 then 2 else st.code } ∧
   (if st.code=0 then 2 else st.code)≠0:=by
  by_cases h : st.code=0
  · simp [statusErr,h]
  · simp [statusErr,h]
 unfold httpClientError
 exact ⟨_,her _⟩

/-- The client makes of the server's JSON the status it was written for, and an error of every
body. -/
theorem connect_error_round_trip (statusCode:ℤ) : (∀st,Encodable st →
   httpClientError statusCode (marshal (connectErrorPayload st))=some st) ∧
  ∀body,∃st,httpClientError statusCode body=some st ∧ st.code≠0 :=
 ⟨fun _ h=>httpClientError_marshal statusCode h,httpClientError_code statusCode⟩

theorem quota_error_round_trip :
  httpClientError 503 (marshal (connectErrorPayload
   { code:=8,message:=utf8 "over <limit>".toList
     details:=[⟨utf8 "type.googleapis.com/google.rpc.QuotaFailure".toList,[10,0,255]⟩] })) =
  some { code:=8,message:=utf8 "over <limit>".toList
         details:=[⟨utf8 "type.googleapis.com/google.rpc.QuotaFailure".toList,[10,0,255]⟩] } :=
 (connect_error_round_trip 503).1 _
  { code := by decide
    message:=⟨"over <limit>".toList,by decide,rfl⟩
    details := by
     intro detail hd
     rw [List.mem_singleton.1 hd]
     exact ⟨"google.rpc.QuotaFailure".toList,by decide,by decide,rfl⟩ }
end InvariantProtocol.ConnectErrors
