import InvariantProtocol.ConnectErrors
import InvariantProtocol.ListRelations
import InvariantProtocol.StatusCodes
namespace InvariantProtocol.RustErrors
open List ListRelations JsonValue ByteText StatusCodes

variable {members:Members} {name:Text}
/-- A Rust string holds Unicode scalar values only. -/
def IsString (v:Value) (s:Text) : Prop := v=.string s ∧ isUnicode s=true

def Once (members:Members) (name:Text) (v:Value) : Prop :=
 members.filter (fun m=>m.1=name)=[(name,v)]

def HasString (members:Members) (name s:Text) : Prop := ∃v,Once members name v ∧ IsString v s

def Absent (members:Members) (name:Text) : Prop := ∀m∈members,m.1≠name

def namesAreUnicode (members:Members) : Bool:=members.all fun m=>isUnicode m.1

structure ConnectDetail where
 typeName : Text
 value : Text

structure ConnectError where
 code : Text
 message : Text
 details : List ConnectDetail

/-- A derived visitor takes a struct from a map, or from a sequence of its fields. -/
def DetailOf (v:Value) (detail:ConnectDetail) : Prop :=
 (∃members,v=.object members ∧ namesAreUnicode members=true ∧
  HasString members (text "type") detail.typeName ∧ HasString members (text "value") detail.value) ∨
 ∃t b,v=.array [t,b] ∧ IsString t detail.typeName ∧ IsString b detail.value

def DetailsOf (v:Value) (details:List ConnectDetail) : Prop :=
 ∃items,v=.array items ∧ Forall₂ DetailOf items details

def ErrorOf (v:Value) (error:ConnectError) : Prop :=
 (∃members,v=.object members ∧ namesAreUnicode members=true ∧
  HasString members (text "code") error.code ∧ HasString members (text "message") error.message ∧
  (Absent members (text "details") ∧ error.details=[] ∨
   ∃d,Once members (text "details") d ∧ DetailsOf d error.details)) ∨
 ∃c m rest,v=.array (c::m::rest) ∧ IsString c error.code ∧ IsString m error.message ∧
  (rest=[] ∧ error.details=[] ∨ ∃d,rest=[d] ∧ DetailsOf d error.details)

/-- `serde_json`: the document that it finds in a body, if its grammar accepts it, and the error that
the derived visitor finds in a document. -/
structure Serde where
 document : Bytes → Option Value
 visit : Value → Option ConnectError
 visit_iff : ∀v error,visit v=some error ↔ ErrorOf v error

section

def codeForHttpStatus : ℕ → Code
 | 400=>.invalidArgument
 | 401=>.unauthenticated
 | 403=>.permissionDenied
 | 404=>.notFound
 | 409=>.aborted
 | 429=>.resourceExhausted
 | 499=>.cancelled
 | 501=>.unimplemented
 | 503=>.unavailable
 | 504=>.deadlineExceeded
 | _=>.unknown

def codeFromConnect (code:Text) : Code :=
 (Code.all.find? fun candidate=>text candidate.connectName=code).getD .unknown

structure Any where
 typeUrl : Text
 value : Bytes

structure RichStatus where
 code : ℕ
 message : Text
 details : List Any

structure Status (Metadata:Type) where
 code : Code
 message : Text
 details : Option RichStatus:=none
 metadata : Metadata

/-- `decode` is the `base64` decoder for the standard alphabet without padding. -/
def anyDetail (decode:List Char → Option Bytes) (detail:ConnectDetail) : Option Any :=
 (decode (detail.value.map Char.ofNat)).map fun value=>
  { typeUrl:=text "type.googleapis.com/"++detail.typeName,value }

variable {Metadata:Type}
def parseConnectError (serde:Serde) (decode:List Char → Option Bytes) (httpStatus:ℕ)
  (body:Bytes) (metadata:Metadata) : Status Metadata :=
 match serde.document body >>= serde.visit with
 | none=>
  { code:=codeForHttpStatus httpStatus
    message:=(decodeLossy body).map Char.toNat
    metadata }
 | some error=>
  let code:=codeFromConnect error.code
  let details:=error.details.filterMap (anyDetail decode)
  if details.isEmpty then { code,message:=error.message,metadata }
  else
   { code
     message:=error.message
     details:=some { code:=code.number,message:=error.message,details }
     metadata }
end

def stringValue : Value → Option Text
 | .string s=>if isUnicode s then some s else none
 | _=>none

/-- The value of a field in the derived visitor of maps: `none` where it is given twice. -/
def field (members:Members) (name:Text) : Option (Option Value) :=
 match members.filter fun m=>m.1=name with
 | []=>some none
 | [m]=>some (some m.2)
 | _=>none

def required (members:Members) (name:Text) : Option Text:=do
 let v ← field members name
 let v ← v
 stringValue v

def connectDetail : Value → Option ConnectDetail
 | .object members=>
  if namesAreUnicode members then do
   let typeName ← required members (text "type")
   let value ← required members (text "value")
   some { typeName,value }
  else none
 | .array [typeName,value]=>do
  let typeName ← stringValue typeName
  let value ← stringValue value
  some { typeName,value }
 | _=>none

def connectDetails : Value → Option (List ConnectDetail)
 | .array items=>items.mapM connectDetail
 | _=>none

def defaultDetails : Option Value → Option (List ConnectDetail)
 | none=>some []
 | some v=>connectDetails v

/-- The derived visitor, written out. -/
def connectError : Value → Option ConnectError
 | .object members=>
  if namesAreUnicode members then do
   let code ← required members (text "code")
   let message ← required members (text "message")
   let given ← field members (text "details")
   let details ← defaultDetails given
   some { code,message,details }
  else none
 | .array (code::message::rest)=>
  if rest.length≤1 then do
   let code ← stringValue code
   let message ← stringValue message
   let details ← defaultDetails rest.head?
   some { code,message,details }
  else none
 | _=>none

section

variable {v:Value}
lemma stringValue_eq_some {s:Text} : stringValue v=some s ↔ IsString v s := by
 unfold IsString
 cases v with
 | string s' =>
  simp only [stringValue,Option.ite_none_right_eq_some,Option.some.injEq,Value.string.injEq]
  constructor
  · rintro ⟨h,rfl⟩
    exact ⟨rfl,h⟩
  · rintro ⟨rfl,h⟩
    exact ⟨h,rfl⟩
 | null | bool | number | array | object=>simp [stringValue]

lemma field_eq_none : field members name=some none ↔ Absent members name := by
 have hf:members.filter (fun m=>m.1=name)=[] ↔ Absent members name:=by
  simp [Absent,filter_eq_nil_iff]
 unfold field
 rw [←hf]
 split
 · rename_i h
   simp [h]
 · rename_i h
   simp [h]
 · rename_i hnil _
   simpa using hnil

lemma field_eq_some : field members name=some (some v) ↔ Once members name v := by
 unfold field Once
 split
 · rename_i h
   simp [h]
 · rename_i m h
   have hn:m.1=name:=by
    have hm:m∈members.filter fun m=>m.1=name:=by simp [h]
    simpa using (mem_filter.1 hm).2
   rw [h]
   simp only [Option.some.injEq,cons.injEq,and_true]
   constructor
   · rintro rfl
     rw [←hn]
   · rintro rfl
     rfl
 · rename_i hs
   simp only [reduceCtorEq,false_iff]
   exact hs _

lemma required_eq_some {s:Text} : required members name=some s ↔ HasString members name s := by
 unfold required HasString
 simp only [Option.bind_eq_bind,Option.bind_eq_some_iff,stringValue_eq_some]
 constructor
 · rintro ⟨_,hv,v,rfl,hs⟩
   exact ⟨v,field_eq_some.1 hv,hs⟩
 · rintro ⟨v,hv,hs⟩
   exact ⟨_,field_eq_some.2 hv,v,rfl,hs⟩

lemma connectDetail_eq_some {detail:ConnectDetail} : connectDetail v=some detail ↔ DetailOf v detail := by
 obtain ⟨typeName,value⟩:=detail
 unfold DetailOf
 fun_cases connectDetail v with
 | case1 members h=>simp [Option.bind_eq_some_iff,required_eq_some,h]
 | case2 members h=>simp [h]
 | case3 t b=>simp [Option.bind_eq_some_iff,stringValue_eq_some]
 | case4 _ ho ha=>
  refine iff_of_false (by simp) ?_
  rintro (⟨_,heq,-⟩|⟨_,_,heq,-⟩)
  · exact ho _ heq
  · exact ha _ _ heq

lemma connectDetails_eq_some {details:List ConnectDetail} :
 connectDetails v=some details ↔ DetailsOf v details := by
 unfold DetailsOf
 cases v with
 | array items=>simp [connectDetails,mapM_eq_some,connectDetail_eq_some]
 | null | bool | number | string | object=>simp [connectDetails]

lemma connectError_eq_some {error:ConnectError} : connectError v=some error ↔ ErrorOf v error := by
 obtain ⟨code,message,details⟩:=error
 unfold ErrorOf
 fun_cases connectError v with
 | case1 members h=>
  have hd:(∃given,field members (text "details")=some given ∧ defaultDetails given=some details) ↔
    Absent members (text "details") ∧ details=[] ∨ ∃d,Once members (text "details") d ∧ DetailsOf d details:=by
   simp [Option.exists,field_eq_none,field_eq_some,defaultDetails,connectDetails_eq_some,
    eq_comm (a := [])]
  simp [Option.bind_eq_some_iff,required_eq_some,h,hd]
 | case2 members h=>simp [h]
 | case3 c m rest h=>
  have hd:defaultDetails rest.head?=some details ↔
    rest=[] ∧ details=[] ∨ ∃d,rest=[d] ∧ DetailsOf d details:=by
   match rest with
   | []=>simp [defaultDetails,eq_comm]
   | [d]=>simp [defaultDetails,connectDetails_eq_some]
   | _::_::_=>simp at h
  simp [Option.bind_eq_some_iff,stringValue_eq_some,hd]
 | case4 c m rest h=>
  refine iff_of_false (by simp) ?_
  rintro (⟨_,heq,-⟩|⟨_,_,_,heq,-,-,hr⟩)
  · cases heq
  · cases heq
    obtain ⟨rfl,-⟩|⟨d,rfl,-⟩:=hr
    · exact h (by simp)
    · exact h (by simp)
 | case5 _ ho ha=>
  refine iff_of_false (by simp) ?_
  rintro (⟨_,heq,-⟩|⟨_,_,_,heq,-⟩)
  · exact ho _ heq
  · exact ha _ _ _ heq

end

section

lemma text_injective : Function.Injective text := by
 intro a b h
 have hl:a.toList=b.toList:=map_injective_iff.2 (fun _ _=>Char.toNat_inj.1) h
 exact String.toList_injective hl

lemma codeFromConnect_connectName (code:Code) : codeFromConnect (text code.connectName)=code := by
 have hf:=code.find_connectName
 unfold codeFromConnect
 simp only [text_injective.eq_iff]
 rw [hf]
 rfl

lemma codeFromConnect_ok {code:Text} : codeFromConnect code=.ok ↔ code=text "ok" := by
 constructor
 · intro h
   unfold codeFromConnect at h
   cases hf : Code.all.find? fun candidate=>text candidate.connectName=code with
   | none=>
    rw [hf] at h
    cases h
   | some c=>
    rw [hf] at h
    have hn:=find?_some hf
    obtain rfl : c=.ok:=h
    exact (of_decide_eq_true hn).symm
 · rintro rfl
   exact codeFromConnect_connectName .ok

lemma codeForHttpStatus_ne_ok (httpStatus:ℕ) : codeForHttpStatus httpStatus≠.ok := by
 unfold codeForHttpStatus
 split <;> decide

variable {Metadata:Type} {serde:Serde} {decode:List Char → Option Bytes} {httpStatus:ℕ} {body:Bytes}
 {metadata:Metadata}
lemma code_of_error {error:ConnectError} (h:serde.document body >>= serde.visit=some error) :
 (parseConnectError serde decode httpStatus body metadata).code=codeFromConnect error.code := by
 unfold parseConnectError
 rw [h]
 dsimp only
 split <;> rfl

lemma code_of_none (h:serde.document body >>= serde.visit=none) :
 (parseConnectError serde decode httpStatus body metadata).code=codeForHttpStatus httpStatus := by
 unfold parseConnectError
 rw [h]
end

section

lemma once_of_mem (hd:(members.map Prod.fst).Nodup) {v:Value}
 (hmm:(name,v)∈members) : Once members name v := by
 unfold Once
 induction members with
 | nil=>cases hmm
 | cons m members ih=>
  rw [map_cons,nodup_cons] at hd
  obtain rfl|hmm:=mem_cons.1 hmm
  · have hr:members.filter (fun m=>m.1=name)=[]:=by
     rw [filter_eq_nil_iff]
     intro m hm heq
     exact hd.1 (mem_map.2 ⟨m,hm,of_decide_eq_true heq⟩)
    rw [filter_cons,hr]
    simp
  · have hne:m.1≠name:=by
     rintro rfl
     exact hd.1 (mem_map.2 ⟨_,hmm,rfl⟩)
    rw [filter_cons_of_neg (by simpa using hne)]
    exact ih hd.2 hmm

lemma mem_of_once {v:Value} (h:Once members name v) : (name,v)∈members := by
 have hm:(name,v)∈members.filter fun m=>m.1=name:=by
  rw [h]
  exact mem_singleton_self _
 exact (mem_filter.1 hm).1

/-- An error object as servers write it, with a message and details that may be left out. -/
structure Emitted (members:Members) (code:Code) : Prop where
 names : namesAreUnicode members=true
 distinct : (members.map Prod.fst).Nodup
 notOk : code≠.ok
 named : (text "code",.string (text code.connectName))∈members
 message : ∀v,(text "message",v)∈members → ∃s,IsString v s
 details : ∀v,(text "details",v)∈members → ∃details,DetailsOf v details

lemma Emitted.errorOf {code:Code} (h:Emitted members code) {m:Value} (hm:(text "message",m)∈members) :
 ∃message details,ErrorOf (.object members) ⟨text code.connectName,message,details⟩ := by
 obtain ⟨message,hs⟩:=h.message m hm
 have hc:HasString members (text "code") (text code.connectName):=
  ⟨_,once_of_mem h.distinct h.named,rfl,isUnicode_text _⟩
 have ht:HasString members (text "message") message:=⟨m,once_of_mem h.distinct hm,hs⟩
 by_cases hdt : ∃d,(text "details",d)∈members
 · obtain ⟨d,hd⟩:=hdt
   obtain ⟨details,ho⟩:=h.details d hd
   exact ⟨message,details,.inl ⟨members,rfl,h.names,hc,ht,.inr ⟨d,once_of_mem h.distinct hd,ho⟩⟩⟩
 · refine ⟨message,[],.inl ⟨members,rfl,h.names,hc,ht,.inl ⟨fun member hmm heq=>hdt ⟨member.2,?_⟩,rfl⟩⟩⟩
   rw [←heq]
   exact hmm

lemma ErrorOf.message {error:ConnectError} (h:ErrorOf (.object members) error) :
 ∃m,(text "message",m)∈members := by
 obtain ⟨_,heq,-,-,⟨m,hm,-⟩,-⟩|⟨_,_,_,heq,-⟩:=h
 · cases heq
   exact ⟨m,mem_of_once hm⟩
 · cases heq

variable {Metadata:Type} (serde:Serde) (decode:List Char → Option Bytes) (httpStatus:ℕ) (body:Bytes)
 (metadata:Metadata)
/-- An error response is not reported as a success, and the code that its body names is kept. -/
def CodeKept : Prop :=
 (parseConnectError serde decode httpStatus body metadata).code≠.ok ∧
 ∀members code,serde.document body=some (.object members) → Emitted members code →
  (parseConnectError serde decode httpStatus body metadata).code=code

lemma code_ne_ok_iff : (parseConnectError serde decode httpStatus body metadata).code≠.ok ↔
 ∀v error,serde.document body=some v → ErrorOf v error → error.code≠text "ok" := by
 cases her : serde.document body >>= serde.visit with
 | none=>
  rw [code_of_none her]
  refine ⟨fun _ v error hv hd=>?_,fun _=>codeForHttpStatus_ne_ok httpStatus⟩
  rw [hv,Option.bind_eq_bind,Option.bind_some,(serde.visit_iff v error).2 hd] at her
  cases her
 | some error=>
  rw [code_of_error her,Ne,codeFromConnect_ok]
  obtain ⟨v,hv,hr⟩:=Option.bind_eq_some_iff.1 her
  constructor
  · intro hne v' error' hv' hd
    obtain rfl:=Option.some.inj (hv.symm.trans hv')
    obtain rfl:=Option.some.inj (hr.symm.trans ((serde.visit_iff v error').2 hd))
    exact hne
  · intro h
    exact h v error hv ((serde.visit_iff v error).1 hr)

/-- The code of an error object is kept with a message, or where the HTTP status stands for it. -/
theorem Emitted.code_iff {code:Code} (h:Emitted members code)
 (hd:serde.document body=some (.object members)) :
 (parseConnectError serde decode httpStatus body metadata).code=code ↔
  (∃m,(text "message",m)∈members) ∨ codeForHttpStatus httpStatus=code := by
 by_cases hms : ∃m,(text "message",m)∈members
 · obtain ⟨m,hm⟩:=hms
   obtain ⟨message,details,he⟩:=h.errorOf hm
   have her:serde.document body >>= serde.visit=some ⟨text code.connectName,message,details⟩:=by
    rw [hd]
    exact (serde.visit_iff _ _).2 he
   rw [code_of_error her,codeFromConnect_connectName]
   exact ⟨fun _=>.inl ⟨m,hm⟩,fun _=>rfl⟩
 · have her:serde.document body >>= serde.visit=none:=by
    rw [hd,Option.bind_eq_bind,Option.bind_some,Option.eq_none_iff_forall_ne_some]
    intro error hr
    exact hms ((serde.visit_iff _ _).1 hr).message
   rw [code_of_none her]
   simp only [hms,false_or]

theorem code_kept_iff : CodeKept serde decode httpStatus body metadata ↔
  (∀v error,serde.document body=some v → ErrorOf v error → error.code≠text "ok") ∧
  ∀members code,serde.document body=some (.object members) → Emitted members code →
   (∃m,(text "message",m)∈members) ∨ codeForHttpStatus httpStatus=code := by
 unfold CodeKept
 rw [code_ne_ok_iff]
 refine and_congr_right fun _=>?_
 constructor
 · intro h members code hd hem
   exact (hem.code_iff serde decode httpStatus body metadata hd).1
    (h members code hd hem)
 · intro h members code hd hem
   exact (hem.code_iff serde decode httpStatus body metadata hd).2
    (h members code hd hem)
end

open JsonText

/-- The grammar of `serde_json` in its default configuration. -/
def serdeJson (body:Bytes) : Option Value:=decodeUtf8 body >>= parse { maxDepth:=128 }

def writtenOut : Serde:=⟨serdeJson,connectError,fun _ _=>connectError_eq_some⟩

lemma serdeJson_of_print {body:Bytes} {d:Doc} (h:body=ConnectErrors.marshal d)
 (hd:d.depth≤128) : serdeJson body=some d.value := by
 unfold serdeJson
 rw [h,ConnectErrors.marshal,decodeUtf8_utf8]
 exact ConnectErrors.undone_escape.parse_print _ d hd

def bareBody : Bytes:=utf8 "\x7b\"code\":\"internal\"\x7d".toList

def okBody : Bytes:=utf8 "\x7b\"code\":\"ok\",\"message\":\"not actually OK\"\x7d".toList

lemma serdeJson_bareBody : serdeJson bareBody =
 some (.object [(text "code",.string (text "internal"))]) := by
 have hb:bareBody=ConnectErrors.marshal
   (.object [("code".toList,.string "internal".toList)]):=by decide
 exact serdeJson_of_print hb (by decide)

lemma serdeJson_okBody : serdeJson okBody =
 some (.object [(text "code",.string (text "ok")),
  (text "message",.string (text "not actually OK"))]) := by
 have hb:okBody=ConnectErrors.marshal
   (.object [("code".toList,.string "ok".toList),
    ("message".toList,.string "not actually OK".toList)]):=by decide
 exact serdeJson_of_print hb (by decide)

lemma bare_emitted : Emitted [(text "code",.string (text "internal"))] .internal where
 notOk:=by decide
 named:=mem_singleton_self _
 names:=by decide
 distinct:=by decide
 message:=by
  intro v hv
  have hn:text "message" = text "code" := congrArg Prod.fst (mem_singleton.1 hv)
  exact absurd hn (by decide)
 details:=by
  intro v hv
  have hn:text "details" = text "code" := congrArg Prod.fst (mem_singleton.1 hv)
  exact absurd hn (by decide)

/-- Without a message an internal error is reported as unknown, and an error that calls itself ok is
reported as a success. -/
theorem bare_and_ok_not_kept : ¬ CodeKept writtenOut decodeCanonical 500 bareBody () ∧
  ¬ CodeKept writtenOut decodeCanonical 500 okBody () := by
 constructor
 · rintro ⟨-,hk⟩
   have hc:=hk _ .internal serdeJson_bareBody bare_emitted
   have hb:writtenOut.document bareBody=_:=serdeJson_bareBody
   rw [parseConnectError,hb] at hc
   cases hc
 · rintro ⟨hok,-⟩
   have hb:writtenOut.document okBody=_:=serdeJson_okBody
   rw [parseConnectError,hb] at hok
   exact hok rfl

open ConnectErrors (Detail Encodable marshal connectErrorPayload connectStatusDetail grpcCodeName)

lemma isString_chars (cs:List Char) : IsString (.string (cs.map Char.toNat)) (cs.map Char.toNat) := by
 have hu:=isUnicode_text (String.ofList cs)
 rw [text,String.toList_ofList] at hu
 exact ⟨rfl,hu⟩

/-- A detail as the server writes it. -/
def written (detail:Detail) : ConnectDetail where
 typeName:=(runes (ConnectErrors.typeName detail.typeUrl)).map Char.toNat
 value:=(encodeRaw detail.value).map Char.toNat

lemma details_written (details:List Detail) :
 Forall₂ DetailOf (values (details.map connectStatusDetail)) (details.map written) := by
 induction details with
 | nil=>exact .nil
 | cons detail details ih=>
  refine .cons (.inl ⟨_,rfl,rfl,⟨_,?_,isString_chars _⟩,⟨_,?_,isString_chars _⟩⟩) ih
  · rfl
  · rfl

lemma errorOf_payload (st:ConnectErrors.Status) : ErrorOf (connectErrorPayload st).value
  ⟨(grpcCodeName st.code).map Char.toNat,(runes st.message).map Char.toNat,st.details.map written⟩ := by
 rw [ConnectErrors.connectErrorPayload_eq]
 split_ifs with h
 · exact .inl ⟨_,rfl,rfl,⟨_,rfl,isString_chars _⟩,⟨_,rfl,isString_chars _⟩,
    .inr ⟨_,rfl,_,rfl,details_written st.details⟩⟩
 · have hnil:st.details=[]:=by simpa [ConnectErrors.connectStatusDetails] using h
   rw [hnil]
   exact .inl ⟨_,rfl,rfl,⟨_,rfl,isString_chars _⟩,⟨_,rfl,isString_chars _⟩,
    .inl ⟨field_eq_none.1 rfl,rfl⟩⟩

/-- The type URL and the value of a detail, as the client passes them on. -/
def passedOn (detail:Detail) : Any:=⟨(runes detail.typeUrl).map Char.toNat,detail.value⟩

variable {decode : List Char → Option Bytes}
lemma anyDetail_written (hdecode : ∀bs,decode (encodeRaw bs)=some bs) {detail : Detail} {name : List Char} (hn : '/' ∉ name)
 (hu : detail.typeUrl=utf8 ("type.googleapis.com/".toList++name)) :
 anyDetail decode (written detail)=some (passedOn detail) := by
 have hs:"type.googleapis.com/".toList="type.googleapis.com".toList++['/']:=by simp
 have ht:ConnectErrors.typeName detail.typeUrl=utf8 name:=by
  rw [hu,hs,append_assoc,singleton_append,ConnectErrors.typeName_utf8 _ name hn]
 have hv:((encodeRaw detail.value).map Char.toNat).map Char.ofNat=encodeRaw detail.value:=by
  simp [Function.comp_def]
 rw [anyDetail,written,passedOn,ht,hu]
 simp only [runes_utf8,hv,hdecode,Option.map_some,text,map_append]

lemma number_codeFromConnect {n:ℕ} (h:1≤n ∧ n≤16) :
 (codeFromConnect ((grpcCodeName n).map Char.toNat)).number=n := by
 have ha:∀k : Fin 16,(codeFromConnect ((grpcCodeName (k+1)).map Char.toNat)).number=k.val+1:=by decide
 have hc:=ha ⟨n-1,by omega⟩
 simpa [Nat.sub_add_cancel h.1] using hc

/-- Under every HTTP status the Rust client reads the code, the message and the details of the status
that the Go server has written, if its JSON reader reads what Go prints and its decoder what Go encodes. -/
theorem go_status_kept {Metadata : Type} {serde : Serde}
  (hread : ∀d : Doc,d.depth≤3 → serde.document (marshal d)=some d.value)
  (hdecode : ∀bs,decode (encodeRaw bs)=some bs) {st : ConnectErrors.Status}
  (h : Encodable st) (httpStatus : ℕ) (metadata : Metadata) : ∃code : Code,code.number=st.code ∧
  parseConnectError serde decode httpStatus (marshal (connectErrorPayload st)) metadata =
   { code
     message:=(runes st.message).map Char.toNat
     details:=if st.details=[] then none else
      some ⟨st.code,(runes st.message).map Char.toNat,st.details.map passedOn⟩
     metadata } := by
 have hd:=ConnectErrors.depth_connectErrorPayload st
 have hf:(st.details.map written).filterMap (anyDetail decode)=st.details.map passedOn:=by
  rw [filterMap_map,←filterMap_eq_map]
  refine filterMap_congr fun detail hdetail=>?_
  obtain ⟨name,-,hn,hu⟩:=h.details detail hdetail
  exact anyDetail_written hdecode hn hu
 refine ⟨_,number_codeFromConnect h.code,?_⟩
 rw [parseConnectError,hread _ (by omega)]
 simp only [Option.bind_eq_bind,Option.bind_some,(serde.visit_iff _ _).2 (errorOf_payload st),hf,number_codeFromConnect h.code,
  List.isEmpty_iff,List.map_eq_nil_iff]
 split_ifs <;> rfl

def missing : ConnectErrors.Status where
 code:=5
 message:=utf8 ['?']
 details:=[⟨utf8 "type.googleapis.com/shop.Item".toList,[1,2]⟩]

theorem missing_status_kept : ∃code : Code,code.number=5 ∧
  parseConnectError writtenOut decodeCanonical 404 (marshal (connectErrorPayload missing)) () =
   { code
     message:=[63]
     details:=some ⟨5,[63],[⟨text "type.googleapis.com/shop.Item",[1,2]⟩]⟩
     metadata:=() } := by
 have h:Encodable missing:=by
  refine ⟨by decide,⟨_,by decide,rfl⟩,fun detail hd=>?_⟩
  obtain rfl:=mem_singleton.1 hd
  exact ⟨"shop.Item".toList,by decide,by decide,rfl⟩
 have hdecode:∀bs,decodeCanonical (encodeRaw bs)=some bs:=by simp [decodeCanonical,Option.filter]
 have hread:∀d : Doc,d.depth≤3 → writtenOut.document (marshal d)=some d.value:=
  fun d hd=>serdeJson_of_print rfl (by omega)
 obtain ⟨code,hc,he⟩:=go_status_kept hread hdecode h 404 ()
 refine ⟨code,hc,he.trans ?_⟩
 rfl
end InvariantProtocol.RustErrors
