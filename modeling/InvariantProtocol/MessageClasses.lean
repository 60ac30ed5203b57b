import InvariantProtocol.GoMessages
import Mathlib.Data.List.TakeWhile
import Mathlib.Data.Rat.Defs
/-! How the stdio sessions of the four runtimes classify an input line. Their JSON decoders are
parameters as far as they are not code of the runtimes. -/
namespace InvariantProtocol.MessageClasses
open List JsonValue GoMessages

inductive Class where
 | blank
 | parseError
 | invalidRequest
 | ignored
 | notification
 | request (id:Option Id)
 -- The session ends with an error.
 | stopped
 deriving DecidableEq

section

/-- A decoder of number literals into double precision; `none` is an infinity. Integers are read
  exactly up to 2^53, and no larger one as a smaller number. -/
structure DoubleReader where
 read : Number → Option ℚ
 exact : ∀n : Number,n.isInteger=true → n.integer.natAbs≤2^53-1 → read n=some n.integer
 large : ∀(n:Number) (q:ℚ),n.isInteger=true → 2^53-1<n.integer.natAbs →
  read n=some q → q.den=1 → 2^53-1<q.num.natAbs

variable (d:DoubleReader)
/-- `Number.isInteger` of TypeScript, and `fract() == 0.0` of Rust. -/
def DoubleReader.isIntegral (n:Number) : Bool:=(d.read n).any fun q=>q.den=1

def DoubleReader.safeInteger (n:Number) : Option ℤ :=
 match d.read n with
 | some q=>if q.den=1 ∧ q.num.natAbs≤2^53-1 then some q.num else none
 | none=>none

inductive SerdeNumber where
 | posInt (n:ℕ)
 | negInt (i:ℤ)
 | float
 deriving DecidableEq

def serdeNumber (n:Number) : SerdeNumber :=
 if n.isInteger ∧ ¬n.negative ∧ n.whole<2^64 then .posInt n.whole
 else if n.isInteger ∧ n.negative ∧ n.whole≠0 ∧ n.whole≤2^63 then .negInt (-n.whole)
 else .float

/-- The numbers of `serde_json`: an integer of 64 bits where the literal fits, except for minus zero, and
  a double otherwise. -/
structure SerdeReader extends DoubleReader where
 number : Number → SerdeNumber
 unsigned : ∀n : Number,n.isInteger=true → n.negative=false → n.whole<2^64 → number n=.posInt n.whole
 signed : ∀n : Number,n.isInteger=true → n.negative=true → n.whole≠0 → n.whole≤2^63 → number n=.negInt (-n.whole)
 double : ∀n : Number,(n.isInteger=true → (n.negative=false → 2^64≤n.whole) ∧
  (n.negative=true → n.whole=0 ∨ 2^63<n.whole)) → number n=.float

lemma SerdeReader.number_eq (d:SerdeReader) (n:Number) : d.number n=serdeNumber n := by
 unfold serdeNumber
 split_ifs with hp hn
 · exact d.unsigned n hp.1 (by simpa using hp.2.1) hp.2.2
 · exact d.signed n hn.1 hn.2.1 hn.2.2.1 hn.2.2.2
 · refine d.double n fun hi=>⟨fun h=>?_,fun h=>?_⟩
   · simpa [hi,h] using hp
   · have hz:¬(n.whole≠0 ∧ n.whole≤2^63):=by simpa [hi,h] using hn
     omega
end

section

structure Validators where
 method : Value → Bool
 id : Value → Option Id
 code : Value → Bool
 message : Value → Bool

def isVersion : Option Value → Bool
 | some (.string s)=>s=text "2.0"
 | _=>false

variable (V:Validators)
def validError : Value → Bool
 | .object error=>(get error (text "code")).any V.code && (get error (text "message")).any V.message
 | _=>false

def isClientResponse : Value → Bool
 | .object msg=>
  isVersion (get msg (text "jsonrpc")) && (get msg (text "method")).isNone &&
   match get msg (text "result"),get msg (text "error") with
   | some result,none=>((get msg (text "id")).any fun id=>(V.id id).isSome) && result.isObject
   | none,some error=>((get msg (text "id")).all fun id=>(V.id id).isSome) && validError V error
   | _,_=>false
 | _=>false

def invalidRequestResponse : Value → Bool
 | .object msg=>
  !isClientResponse V (.object msg) &&
   !(isVersion (get msg (text "jsonrpc")) && (get msg (text "method")).any V.method &&
    (get msg (text "id")).all fun id=>(V.id id).isSome)
 | _=>true

/-- The order of the tests in the loops of Python, TypeScript and Rust. -/
def classify (msg:Value) : Class :=
 if invalidRequestResponse V msg then .invalidRequest
 else if isClientResponse V msg then .ignored
 else match msg with
  | .object msg=>match get msg (text "id") with
   | none=>.notification
   | some id=>.request (V.id id)
  | _=>.invalidRequest
end

namespace Python

def validJsonrpcId : Value → Option Id
 | .string s=>some (.string s)
 | .number n=>if n.isInteger ∧ -(2^53-1)≤n.integer ∧ n.integer≤2^53-1 then
   some (.integer n.integer) else none
 | _=>none

def validators : Validators where
 method:=Value.isString
 id:=validJsonrpcId
 code:=fun
  | .number n=>n.isInteger
  | _=>false
 message:=Value.isString
end Python

namespace TypeScript

def validJsonRpcId (d:DoubleReader) : Value → Option Id
 | .string s=>some (.string s)
 | .number n=>(d.safeInteger n).map .integer
 | _=>none

def validators (d:DoubleReader) : Validators where
 method:=Value.isString
 id:=validJsonRpcId d
 code:=fun
  | .number n=>d.isIntegral n
  | _=>false
 message:=Value.isString
end TypeScript

namespace Rust

def jsonrpcSafeInteger (d:SerdeReader) (n:Number) : Option ℤ :=
 match d.number n with
 | .posInt k=>if k≤2^53-1 then some k else none
 | .negInt i=>if -(2^53-1) ≤ i then some i else none
 | .float=>d.safeInteger n

def validJsonrpcId (d:SerdeReader) : Value → Option Id
 | .string s=>some (.string s)
 | .number n=>(jsonrpcSafeInteger d n).map .integer
 | _=>none

def validJsonrpcInteger (d:SerdeReader) : Value → Bool
 | .number n=>d.number n≠.float
 | _=>false

def validators (d:SerdeReader) : Validators where
 method:=Value.isString
 id:=validJsonrpcId d
 code:=validJsonrpcInteger d
 message:=Value.isString
end Rust

namespace Go

def classOf : Parsed Unit → Class
 | .protocolError response=>
  match response.body with
  | .error code _=>
   if code = -32700 then .parseError
   else if code = -32600 then .invalidRequest
   else .request (idValue response.id)
  | .result _=>.request (idValue response.id)
 | .clientResponse=>.ignored
 | .request req=>
  match req.id with
  | none=>.notification
  | some id=>.request (idValue id)

/-- What the parser requires of members that are named exactly. -/
def validators : Validators where
 method:=fun v=>v.isString || v.isNull
 id:=idValue
 code:=validMCPInteger
 message:=fun v=>v.isString || v.isNull
end Go

section

inductive Runtime where
 | go
 | python
 | typescript
 | rust
 deriving DecidableEq

def dropCR (line:List Char) : List Char :=
 if line.getLast?=some '\r' then line.dropLast else line

def trimWith (p:Char → Bool) (line:List Char) : List Char :=
 ((line.dropWhile p).reverse.dropWhile p).reverse

/-- The bytes `bytes.strip` removes. -/
def pythonSpace (c:Char) : Bool:=c.toNat∈[9,10,11,12,13,32]

/-- `u8::is_ascii_whitespace`. -/
def rustSpace (c:Char) : Bool:=c.toNat∈[9,10,12,13,32]

/-- The code points `String.prototype.trim` removes. -/
def typescriptSpace (c:Char) : Bool :=
 c.toNat∈[9,10,11,12,13,32,0xA0,0x1680,0x2028,0x2029,0x202F,0x205F,0x3000,0xFEFF] ||
  (0x2000≤c.toNat && c.toNat≤0x200A)

/-- `TextDecoder` drops a byte order mark. -/
def dropBOM (line:List Char) : List Char :=
 if line.head?=some (Char.ofNat 0xFEFF) then line.tail else line

def decoded : Runtime → List Char → List Char
 | .go,line=>dropCR line
 | .python,line=>trimWith pythonSpace line
 | .typescript,line=>dropBOM (dropCR line)
 | .rust,line=>dropCR line

def isBlank : Runtime → List Char → Bool
 | .go,line=>dropCR line=[]
 | .python,line=>trimWith pythonSpace line=[]
 | .typescript,line=>trimWith typescriptSpace (dropBOM (dropCR line))=[]
 | .rust,line=>(dropCR line).all rustSpace

/-- The JSON decoders: the document of a text, which documents the runtime's decoder is able to
  take (nesting, surrogates and numbers out of range are limited), and whether Python's raises a
  `RecursionError`, which the session does not catch. -/
structure Decoders where
 read : List Char → Option Value
 accepts : Runtime → List Char → Bool
 recursionError : List Char → Bool
 typescript : DoubleReader
 rust : SerdeReader
 read_visible : ∀line doc,read line=some doc → ∃c∈line,33≤c.toNat ∧ c.toNat≤126
 read_decoded : ∀r line doc,read line=some doc → read (decoded r line)=some doc

variable (env:Decoders)
def Decoders.decode (r:Runtime) (line:List Char) : Option Value :=
 if env.accepts r (decoded r line) then env.read (decoded r line) else none

def size (line:List Char) : ℕ:=(line.map Char.utf8Size).sum

def classifyDecoded (V:Validators) : Option Value → Class
 | none=>.parseError
 | some msg=>classify V msg

def readLimit : Runtime → Option ℕ
 | .go=>some (2^20-1)
 | .python=>some (2^16)
 | .typescript=>none
 | .rust=>none

def classifyMessage (r:Runtime) (msg:Option Value) : Class :=
 match r with
 | .go=>Go.classOf (parseMCPJSONRPC (msg.elim (.error []) .ok))
 | .python=>classifyDecoded Python.validators msg
 | .typescript=>classifyDecoded (TypeScript.validators env.typescript) msg
 | .rust=>classifyDecoded (Rust.validators env.rust) msg

def session (r:Runtime) (line:List Char) : Class :=
 if (readLimit r).any (· < size line) then .stopped
 else if isBlank r line then .blank
 else if r=.python ∧ env.recursionError (decoded r line) then .stopped
 else classifyMessage env r (env.decode r line)
end

section
variable {n:Number}
lemma DoubleReader.safeInteger_integer (d:DoubleReader) (h:n.isInteger=true) :
 d.safeInteger n=if n.integer.natAbs≤2^53-1 then some n.integer else none := by
 unfold DoubleReader.safeInteger
 by_cases hs : n.integer.natAbs≤2^53-1
 · simp [d.exact n h hs]
 · rw [if_neg hs]
   cases hr : d.read n with
   | none=>rfl
   | some q=>
    have hl:=d.large n q h (by omega) hr
    refine if_neg ?_
    rintro ⟨hd,hn⟩
    have hl:=hl hd
    omega

lemma DoubleReader.isIntegral_integer (d:DoubleReader) (h:n.isInteger=true)
 (hs:n.integer.natAbs≤2^53-1) : d.isIntegral n=true := by
 simp [DoubleReader.isIntegral,d.exact n h hs]

lemma SerdeReader.number_decimal (d:SerdeReader) (h:n.isInteger=false) : d.number n=.float := by
 simp [d.number_eq,serdeNumber,h]

lemma Rust.jsonrpcSafeInteger_integer (d:SerdeReader) (h:n.isInteger=true) : Rust.jsonrpcSafeInteger d n =
  if n.integer.natAbs≤2^53-1 then some n.integer else none := by
 rw [Rust.jsonrpcSafeInteger,d.number_eq,serdeNumber]
 by_cases hp : n.isInteger=true ∧ ¬n.negative=true ∧ n.whole<2^64
 · have hvalue:n.integer=n.whole:=by simp [Number.integer,hp.2.1]
   simp only [if_pos hp,hvalue,Int.natAbs_natCast]
 · rw [if_neg hp]
   by_cases hn : n.isInteger=true ∧ n.negative=true ∧ n.whole≠0 ∧ n.whole≤2^63
   · have hvalue:n.integer = -n.whole:=by simp [Number.integer,hn.2.1]
     have hr:-(2^53-1) ≤ -(n.whole : ℤ) ↔ n.whole≤2^53-1:=by omega
     simp only [if_pos hn,hvalue,Int.natAbs_neg,Int.natAbs_natCast,hr]
   · simp only [if_neg hn]
     exact d.safeInteger_integer h

lemma Python.validJsonrpcId_eq (v:Value) : Python.validJsonrpcId v=idValue v := by
 cases v with
 | number n=>
  have hr:(-(2^53-1)≤n.integer ∧ n.integer≤2^53-1) ↔
    n.integer.natAbs≤2^53-1:=by omega
  simp only [Python.validJsonrpcId,idValue,hr]
 | _=>rfl

lemma idValue_number (h:n.isInteger=true) : idValue (.number n) =
  (if n.integer.natAbs≤2^53-1 then some n.integer else none).map Id.integer := by
 simp only [idValue,h,true_and]
 split <;> rfl

lemma idValue_decimal (h:n.isInteger=false) : idValue (.number n)=none := by
 simp [idValue,h]

variable (env:Decoders)
def validators : Runtime → Validators
 | .go=>Go.validators
 | .python=>Python.validators
 | .typescript=>TypeScript.validators env.typescript
 | .rust=>Rust.validators env.rust

/-- Neither TypeScript nor Rust takes a fraction or an exponent for an integer. -/
def PortableId (id:Value) : Prop :=
 ∀n,id=.number n → n.isInteger=false →
  env.typescript.safeInteger n=none ∧ env.rust.safeInteger n=none

variable {env}
lemma id_integer (r:Runtime) (h:n.isInteger=true) :
 (validators env r).id (.number n)=idValue (.number n) := by
 cases r with
 | go=>rfl
 | python=>exact Python.validJsonrpcId_eq (.number n)
 | typescript=>
  rw [idValue_number h,←env.typescript.safeInteger_integer h]
  rfl
 | rust=>
  rw [idValue_number h,←Rust.jsonrpcSafeInteger_integer env.rust h]
  rfl

lemma id_typescript_decimal (n:Number) :
 (validators env .typescript).id (.number n)=(env.typescript.safeInteger n).map .integer := rfl

lemma id_rust_decimal (h:n.isInteger=false) :
 (validators env .rust).id (.number n)=(env.rust.safeInteger n).map .integer := by
 simp [validators,Rust.validators,Rust.validJsonrpcId,Rust.jsonrpcSafeInteger,env.rust.number_decimal h]

lemma portableId_iff (id:Value) : PortableId env id ↔ ∀r,(validators env r).id id=idValue id := by
 constructor
 · intro h r
   cases id with
   | number n=>
    by_cases hn : n.isInteger=true
    · exact id_integer r hn
    · have hd:n.isInteger=false:=by simpa using hn
      obtain ⟨hts,hr⟩:=h n rfl hd
      cases r with
      | go=>rfl
      | python=>exact Python.validJsonrpcId_eq (.number n)
      | typescript=>rw [id_typescript_decimal,hts,idValue_decimal hd];rfl
      | rust=>rw [id_rust_decimal hd,hr,idValue_decimal hd];rfl
   | _=>cases r <;> rfl
 · rintro h n rfl hd
   have hts:=h .typescript
   have hr:=h .rust
   rw [id_typescript_decimal,idValue_decimal hd] at hts
   rw [id_rust_decimal hd,idValue_decimal hd] at hr
   exact ⟨Option.map_eq_none_iff.1 hts,Option.map_eq_none_iff.1 hr⟩

lemma portableId_iff_isSome (id:Value) :
 PortableId env id ↔ ∀r,((validators env r).id id).isSome=(idValue id).isSome := by
 rw [portableId_iff]
 constructor
 · intro h r
   rw [h r]
 · intro h r
   cases id with
   | number n=>
    by_cases hn : n.isInteger=true
    · exact id_integer r hn
    · have hnn:idValue (.number n)=none:=idValue_decimal (by simpa using hn)
      have hr:=h r
      rw [hnn] at hr ⊢
      exact Option.isSome_eq_false_iff.1 hr |> Option.isNone_iff_eq_none.1
   | _=>cases r <;> rfl
end

section

def requestClass (V:Validators) (method:Value) (id:Option Value) : Class :=
 if V.method method then
  match id with
  | none=>.notification
  | some id=>if (V.id id).isSome then .request (V.id id) else .invalidRequest
 else .invalidRequest

def isResponse (V:Validators) (msg:Members) : Bool :=
 match get msg (text "result"),get msg (text "error") with
 | some result,none=>((get msg (text "id")).any fun id=>(V.id id).isSome) && result.isObject
 | none,some error=>((get msg (text "id")).all fun id=>(V.id id).isSome) && validError V error
 | _,_=>false

variable {V:Validators} {msg:Members}
lemma classify_method {method:Value} (hversion:isVersion (get msg (text "jsonrpc"))=true)
 (hmethod:get msg (text "method")=some method) :
 classify V (.object msg)=requestClass V method (get msg (text "id")) := by
 simp only [classify,invalidRequestResponse,isClientResponse,hversion,hmethod,requestClass,
  Option.isNone_some,Bool.and_false,Bool.false_and,Option.any_some,Bool.not_false,Bool.true_and]
 cases V.method method <;> cases hid : get msg (text "id") with
 | none=>simp
 | some id=>cases hv : (V.id id).isSome <;> simp [hv]

lemma classify_response (hversion:isVersion (get msg (text "jsonrpc"))=true)
 (hmethod:get msg (text "method")=none) :
 classify V (.object msg)=if isResponse V msg then .ignored else .invalidRequest := by
 have hc:isClientResponse V (.object msg)=isResponse V msg:=by
  simp only [isClientResponse,hversion,hmethod,isResponse,Option.isNone_none,Bool.and_self,Bool.true_and]
 simp only [classify,invalidRequestResponse,hc,hmethod]
 cases isResponse V msg <;> simp

lemma classify_unversioned (hversion:isVersion (get msg (text "jsonrpc"))=false) :
 classify V (.object msg)=.invalidRequest := by
 simp [classify,invalidRequestResponse,isClientResponse,hversion]
end

section

/-- No name is repeated, and none differs from a field of a request in its case only. -/
def WellNamed : Value → Prop
 | .object fields=>(fields.map Prod.fst).Nodup ∧
   ∀m∈fields,∀name∈[text "jsonrpc",text "id",text "method",text "params"],
    matchesField name m.1=true → m.1=name
 | _=>True

variable {fields:Members}
lemma rawField_eq_get {field:Text} (hs:matchesField field field=true)
 (h:∀m∈fields,matchesField field m.1=true → m.1=field) : rawField fields field=get fields field := by
 induction fields using reverseRecOn with
 | nil=>rfl
 | append_singleton fields m ih=>
  rw [rawField_snoc,get_snoc,ih fun m hm=>h m (mem_append_left _ hm)]
  by_cases hm : m.1=field
  · rw [if_pos hm,hm,if_pos hs]
  · rw [if_neg hm,if_neg fun hmt=>hm (h m (by simp) hmt)]

lemma stringsDecode_iff (hnm:WellNamed (.object fields)) {method:Value}
 (hversion:isVersion (get fields (text "jsonrpc"))=true) (hmethod:get fields (text "method")=some method) :
 StringsDecode fields ↔ Go.validators.method method=true := by
 obtain ⟨hnd,hn⟩:=hnm
 constructor
 · intro h
   have hs:matchesField (text "method") (text "method")=true:=by decide
   simpa [Go.validators] using h _ (mem_of_get hmethod) (.inr hs)
 · intro h m hm hmt
   have hg:=get_of_mem hnd hm
   rcases hmt with hmt|hmt
   · rw [hn m hm _ (by simp) hmt] at hg
     rw [hg] at hversion
     left
     cases hv : m.2 with
     | string s=>rfl
     | _=>simp [hv,isVersion] at hversion
   · rw [hn m hm _ (by simp) hmt,hmethod,Option.some.injEq] at hg
     simpa [Go.validators,hg] using h

lemma classOf_parseRequest {req:Request} (hr:req.id=get fields (text "id")) :
 Go.classOf (parseRequest fields req) =
  match get fields (text "id") with
  | none=>.notification
  | some id=>if (idValue id).isSome then .request (idValue id) else .invalidRequest := by
 cases hid : get fields (text "id") with
 | none=>
  rw [parseRequest_without_id hid]
  simp [Go.classOf,hr,hid]
 | some id=>
  cases hvalue : idValue id with
  | none=>
   have hi:validMCPID id=false:=by simp [validMCPID_eq,hvalue]
   simp [parseRequest,hid,hvalue,hi,invalidRequest,mcpErr,Go.classOf]
  | some i=>
   have hv:validMCPID id=true:=by simp [validMCPID_eq,hvalue]
   have hn:idValue (normalizeID id)=some i:=by simp [idValue_normalizeID,hvalue]
   rcases @parseRequest_with_id Unit fields req id id hid hv (hr.trans hid) with
    ⟨req',hp,hr'⟩ | hp
   · simp [hp,Go.classOf,hr',hn,hvalue]
   · simp [hp,Go.classOf,mcpErr,hn,hvalue]

lemma validMCPError_eq (error:Value) : validMCPError error=validError Go.validators error := by
 cases error with
 | object e=>
  simp only [validMCPError,validError,Go.validators]
  congr 1
  cases get e (text "message") with
  | none=>rfl
  | some message=>cases message <;> rfl
 | _=>rfl

lemma classOf_parseClientResponse : Go.classOf (parseClientResponse fields) =
  if isResponse Go.validators fields then .ignored else .invalidRequest := by
 unfold parseClientResponse isResponse
 have hid:(fun id=>(Go.validators.id id).isSome)=validMCPID:=by
  funext id
  exact (validMCPID_eq id).symm
 cases get fields (text "result") with
 | none=>
  cases get fields (text "error") with
  | none=>simp [Go.classOf,invalidRequest,mcpErr]
  | some error=>
   simp only [hid,validMCPError_eq]
   split <;> simp [Go.classOf,invalidRequest,mcpErr]
 | some result=>
  cases get fields (text "error") with
  | none=>
   simp only [hid]
   split <;> simp [Go.classOf,invalidRequest,mcpErr]
  | some error=>simp [Go.classOf,invalidRequest,mcpErr]

lemma go_classify {doc:Value} (hn:WellNamed doc) :
 Go.classOf (parseMCPJSONRPC (.ok doc))=classify Go.validators doc := by
 cases doc with
 | object fields=>
  cases hversion : isVersion (get fields (text "jsonrpc")) with
  | false=>
   rw [classify_unversioned hversion]
   simp only [parseMCPJSONRPC]
   split
   · next version hg=>
     rw [hg] at hversion
     rw [if_neg (by simpa [isVersion] using hversion)]
     rfl
   · rfl
  | true=>
   obtain ⟨version,hg,rfl⟩ : ∃s,get fields (text "jsonrpc")=some (.string s) ∧
     s=text "2.0":=by
    unfold isVersion at hversion
    split at hversion
    · next s hs=>exact ⟨s,hs,by simpa using hversion⟩
    · cases hversion
   cases hmethod : get fields (text "method") with
   | none=>
    rw [classify_response hversion hmethod,←classOf_parseClientResponse]
    simp [parseMCPJSONRPC,hg,hmethod]
   | some method=>
    rw [classify_method hversion hmethod]
    have hd:=stringsDecode_iff hn hversion hmethod
    rw [←unmarshalRequest_isSome] at hd
    simp only [parseMCPJSONRPC,hg,hmethod,Option.isSome_some,if_true]
    cases hr : unmarshalRequest fields with
    | none=>
     have hi:Go.validators.method method=false:=by simpa [hr] using hd
     simp [requestClass,hi,Go.classOf,invalidRequest,mcpErr]
    | some req=>
     have hv:Go.validators.method method=true:=by simpa [hr] using hd
     have hid:req.id=get fields (text "id"):=by
      rw [unmarshalRequest_id hr]
      exact rawField_eq_get (by decide) fun m hm=>hn.2 m hm _ (by simp)
     simp only [requestClass,hv,if_true]
     exact classOf_parseRequest hid
 | _=>rfl
end

section
variable (env:Decoders)
/-- An error code on which the runtimes agree: an integer that is neither too large nor minus
  zero, or a number that TypeScript does not take for an integer either. -/
def PortableCode (code:Value) : Prop :=
 ∀n,code=.number n →
  if n.isInteger then n.integer.natAbs≤2^53-1 ∧ ¬(n.negative=true ∧ n.whole=0)
  else env.typescript.isIntegral n=false

def validIds (r:Runtime) (id:Option Value) : Bool :=
 id.all fun id=>((validators env r).id id).isSome

/-- Go takes a null for a message; TypeScript and Rust may take a fraction for an id. -/
def PortableError (id code message:Option Value) : Prop :=
 match message with
 | some .null=>¬(validIds env .go id=true ∧ code.any Go.validators.code=true)
 | some (.string _)=>
  if validIds env .go id then ∀c,code=some c → PortableCode env c
  else ∀n m,id=some (.number n) → code=some (.number m) → n.isInteger=false →
   ((env.typescript.safeInteger n).isSome=true → env.typescript.isIntegral m=false) ∧
   ((env.rust.safeInteger n).isSome=true → env.rust.number m=.float)
 | _=>True

def PortableResponse (msg:Members) : Prop :=
 match get msg (text "result"),get msg (text "error") with
 | some (.object _),none=>∀id,get msg (text "id")=some id → PortableId env id
 | none,some (.object error)=>
  PortableError env (get msg (text "id")) (get error (text "code")) (get error (text "message"))
 | _,_=>True

/-- A message that every runtime puts into the same class. Go takes a null for a method. -/
def Portable : Value → Prop
 | .object msg=>
  isVersion (get msg (text "jsonrpc"))=true →
   match get msg (text "method") with
   | some (.string _)=>∀id,get msg (text "id")=some id → PortableId env id
   | some .null=>∃id,get msg (text "id")=some id ∧ idValue id=none
   | some _=>True
   | none=>PortableResponse env msg
 | _=>True

variable {env}
lemma requestClass_string {s:Text} (id:Option Value) (r:Runtime) :
 requestClass (validators env r) (.string s) id =
  match id with
  | none=>.notification
  | some id=>if ((validators env r).id id).isSome then .request ((validators env r).id id)
    else .invalidRequest := by
 cases r <;> rfl

lemma requests_agree {s:Text} (id:Option Value) :
 (∃c,∀r,requestClass (validators env r) (.string s) id=c) ↔
  ∀v,id=some v → PortableId env v := by
 simp only [requestClass_string]
 cases id with
 | none=>
  refine iff_of_true ⟨_,fun _=>rfl⟩ fun v hv=>?_
  cases hv
 | some v=>
  simp only [Option.some.injEq,forall_eq',portableId_iff]
  constructor
  · rintro ⟨c,hc⟩ r
    have hgo:=(hc .go).trans (hc r).symm
    have hid:(validators env .go).id v=idValue v:=rfl
    rw [hid] at hgo
    cases hv : idValue v <;> cases hr : (validators env r).id v <;> simp_all
  · intro h
    exact ⟨_,fun r=>by rw [h r]⟩

lemma null_methods_agree (id:Option Value) : (∃c,∀r,requestClass (validators env r) .null id=c) ↔
  ∃v,id=some v ∧ idValue v=none := by
 have hgo:requestClass (validators env .go) .null id =
   match id with
   | none=>.notification
   | some id=>if (idValue id).isSome then .request (idValue id) else .invalidRequest:=rfl
 have ho:∀r,r≠.go → requestClass (validators env r) .null id=.invalidRequest:=by
  intro r hr
  cases r
  · exact absurd rfl hr
  all_goals rfl
 constructor
 · rintro ⟨c,hc⟩
   have heq:=(hc .go).trans (hc .python).symm
   rw [hgo,ho .python (by decide)] at heq
   cases id with
   | none=>cases heq
   | some v=>
    refine ⟨v,rfl,?_⟩
    cases hv : idValue v with
    | none=>rfl
    | some i=>simp [hv] at heq
 · rintro ⟨v,rfl,hv⟩
   refine ⟨.invalidRequest,fun r=>?_⟩
   by_cases hr : r=.go
   · simp [hr,hgo,hv]
   · exact ho r hr

lemma responses_agree (f:Runtime → Bool) :
 (∃c,∀r,(if f r then Class.ignored else .invalidRequest)=c) ↔ ∀r,f r=f .go := by
 constructor
 · rintro ⟨c,hc⟩ r
   have heq:=(hc r).trans (hc .go).symm
   cases hr : f r <;> cases hgo : f .go <;> simp_all
 · intro h
   exact ⟨_,fun r=>by rw [h r]⟩

lemma validIds_of_go {id:Option Value} (h:validIds env .go id=true) (r:Runtime) :
 validIds env r id=true := by
 cases id with
 | none=>rfl
 | some v=>
  have hgo:(idValue v).isSome=true:=h
  cases v with
  | number n=>
   have hn:n.isInteger=true:=by
    by_contra hdecimal
    rw [idValue_decimal (by simpa using hdecimal)] at hgo
    cases hgo
   simp only [validIds,Option.all_some,id_integer r hn]
   exact hgo
  | string s=>cases r <;> rfl
  | _=>cases hgo

variable {n:Number}
lemma serdeNumber_ne_float (h:n.isInteger=true) (hs:n.integer.natAbs≤2^53-1) :
 serdeNumber n≠.float ↔ ¬(n.negative=true ∧ n.whole=0) := by
 cases hn : n.negative with
 | false=>
  have hvalue:n.integer=n.whole:=by simp [Number.integer,hn]
  rw [hvalue] at hs
  simp [serdeNumber,h,hn]
  omega
 | true=>
  have hvalue:n.integer = -n.whole:=by simp [Number.integer,hn]
  rw [hvalue] at hs
  by_cases hz : n.whole=0
  · simp [serdeNumber,h,hn,hz]
  · simp [serdeNumber,h,hn,hz]
    omega

lemma codes_agree_integer (h:n.isInteger=true) :
 (∀r,(validators env r).code (.number n)=Go.validators.code (.number n)) ↔
  n.integer.natAbs≤2^53-1 ∧ ¬(n.negative=true ∧ n.whole=0) := by
 have hgo:Go.validators.code (.number n)=decide (n.integer.natAbs≤2^53-1):=by
  simp only [Go.validators,validMCPInteger,mcpIntegerValue_number,h,true_and]
  split <;> simp_all
 have hp:(validators env .python).code (.number n)=true:=h
 have hr:(validators env .rust).code (.number n)=decide (serdeNumber n≠.float):=by
  rw [←env.rust.number_eq]
  rfl
 constructor
 · intro ha
   have hs:n.integer.natAbs≤2^53-1:=by
    simpa [hgo] using (ha .python).symm.trans hp
   refine ⟨hs,(serdeNumber_ne_float h hs).1 ?_⟩
   have hc:=(ha .rust).trans (hgo.trans (decide_eq_true hs))
   exact of_decide_eq_true (hr.symm.trans hc)
 · rintro ⟨hs,hz⟩ r
   rw [hgo,decide_eq_true hs]
   cases r with
   | go=>exact hgo.trans (decide_eq_true hs)
   | python=>exact hp
   | typescript=>exact env.typescript.isIntegral_integer h hs
   | rust=>exact hr.trans (decide_eq_true ((serdeNumber_ne_float h hs).2 hz))

lemma codes_agree_decimal (h:n.isInteger=false) :
 (∀r,(validators env r).code (.number n)=Go.validators.code (.number n)) ↔
  env.typescript.isIntegral n=false := by
 have hgo:Go.validators.code (.number n)=false:=by
  simp [Go.validators,validMCPInteger,mcpIntegerValue,h]
 rw [hgo]
 constructor
 · intro ha
   exact ha .typescript
 · intro hts r
   cases r with
   | go=>exact hgo
   | python=>exact h
   | typescript=>exact hts
   | rust=>simp [validators,Rust.validators,Rust.validJsonrpcInteger,env.rust.number_decimal h]

lemma codes_agree (code:Value) :
 (∀r,(validators env r).code code=Go.validators.code code) ↔ PortableCode env code := by
 cases code with
 | number n=>
  simp only [PortableCode,Value.number.injEq,forall_eq']
  by_cases h : n.isInteger=true
  · rw [if_pos h,codes_agree_integer h]
  · rw [if_neg h,codes_agree_decimal (by simpa using h)]
 | _=>
  refine iff_of_true (fun r=>?_) (fun n hn=>by cases hn)
  cases r <;> rfl

lemma refused_decimal (m:Number) (hd:n.isInteger=false) (hi:idValue (.number n)=none) :
 (∀r,(((validators env r).id (.number n)).isSome && (validators env r).code (.number m))=false) ↔
  ((env.typescript.safeInteger n).isSome=true → env.typescript.isIntegral m=false) ∧
  ((env.rust.safeInteger n).isSome=true → env.rust.number m=.float) := by
 have hr:=@id_rust_decimal n env hd
 constructor
 · intro ha
   have ht:=ha .typescript
   have hu:=ha .rust
   rw [id_typescript_decimal] at ht
   rw [hr] at hu
   exact ⟨by simpa [validators,TypeScript.validators] using ht,
    by simpa [validators,Rust.validators,Rust.validJsonrpcInteger] using hu⟩
 · rintro ⟨ht,hu⟩ r
   cases r with
   | go=>simp [validators,Go.validators,hi]
   | python=>simp [validators,Python.validators,Python.validJsonrpcId_eq,hi]
   | typescript=>
    rw [id_typescript_decimal]
    simpa [validators,TypeScript.validators] using ht
   | rust=>
    rw [hr]
    simpa [validators,Rust.validators,Rust.validJsonrpcInteger] using hu

lemma refused_errors {id:Value} (code:Option Value) (hi:idValue id=none) :
 (∀r,(((validators env r).id id).isSome && code.any (validators env r).code)=false) ↔
  ∀n m,id=.number n → code=some (.number m) → n.isInteger=false →
   ((env.typescript.safeInteger n).isSome=true → env.typescript.isIntegral m=false) ∧
   ((env.rust.safeInteger n).isSome=true → env.rust.number m=.float) := by
 cases id with
 | number n=>
  by_cases h : n.isInteger=true
  · refine iff_of_true (fun r=>by rw [id_integer r h,hi];rfl) fun k m hk _ hd=>?_
    cases hk
    rw [h] at hd
    cases hd
  · have hd:n.isInteger=false:=by simpa using h
    constructor
    · rintro ha k m ⟨⟩ rfl -
      exact (refused_decimal m hd hi).1 ha
    · rintro ha r
      match code with
      | some (.number m)=>exact (refused_decimal m hd hi).2 (ha n m rfl rfl hd) r
      | none | some (.null) | some (.bool _) | some (.string _) | some (.array _) | some (.object _)=>
       refine Bool.and_eq_false_iff.2 (.inr ?_)
       cases r <;> rfl
 | string s=>cases hi
 | _=>exact iff_of_true (fun r=>by cases r <;> rfl) fun n m hn=>by cases hn

lemma errors_agree (id code message:Option Value) :
 (∀r,(validIds env r id && (code.any (validators env r).code && message.any (validators env r).message)) =
  (validIds env .go id && (code.any Go.validators.code && message.any Go.validators.message))) ↔
  PortableError env id code message := by
 cases message with
 | none=>exact iff_of_true (fun r=>by simp) trivial
 | some m=>
  cases m with
  | null=>
   have hp:(validIds env .python id && (code.any (validators env .python).code &&
     (some Value.null).any (validators env .python).message))=false:=by
    simp [validators,Python.validators,Value.isString]
   have hgo:(some Value.null).any Go.validators.message=true:=rfl
   simp only [PortableError,hgo,Bool.and_true]
   constructor
   · intro h
     have heq:=(h .python).symm.trans hp
     simpa using heq
   · intro h r
     have hf:(validIds env .go id && code.any Go.validators.code)=false:=by
      simpa using h
     rw [hf]
     cases r with
     | go=>simpa [validators,hgo] using h
     | _=>simp [validators,Python.validators,TypeScript.validators,Rust.validators,Value.isString]
  | string s=>
   have hm:∀r,(some (Value.string s)).any (validators env r).message=true:=by
    intro r
    cases r <;> rfl
   have hgo:(some (Value.string s)).any Go.validators.message=true:=rfl
   simp only [PortableError,hm,hgo,Bool.and_true]
   by_cases hv : validIds env .go id=true
   · simp only [validIds_of_go hv,if_true,Bool.true_and]
     cases code with
     | none=>simp
     | some c=>simpa using codes_agree c
   · have hi:validIds env .go id=false:=by simpa using hv
     simp only [hi,Bool.false_and,Bool.false_eq_true,if_false]
     cases id with
     | none=>cases hi
     | some v=>simpa [validIds] using refused_errors code (by simpa [validIds,validators,Go.validators] using hi)
  | _=>
   refine iff_of_true (fun r=>?_) trivial
   cases r <;> simp [validators,Go.validators,Python.validators,TypeScript.validators,Rust.validators,
    Value.isString,Value.isNull]

lemma responses_portable (msg:Members) :
 (∀r,isResponse (validators env r) msg=isResponse Go.validators msg) ↔
  PortableResponse env msg := by
 unfold isResponse PortableResponse
 cases get msg (text "result") with
 | none=>
  cases get msg (text "error") with
  | none=>exact iff_of_true (fun r=>rfl) trivial
  | some error=>
   cases error with
   | object e=>
    simp only [validError]
    exact errors_agree _ _ _
   | _=>exact iff_of_true (fun r=>by simp [validError]) trivial
 | some result=>
  cases get msg (text "error") with
  | some error=>exact iff_of_true (fun r=>rfl) (by cases result <;> trivial)
  | none=>
   cases result with
   | object members=>
    simp only [Value.isObject,Bool.and_true]
    cases get msg (text "id") with
    | none=>simp
    | some id=>
     simp only [Option.any_some,Option.some.injEq,forall_eq']
     exact (portableId_iff_isSome id).symm
   | _=>exact iff_of_true (fun r=>by simp [Value.isObject]) trivial

/-- The four runtimes classify a decoded message alike exactly if it is portable. -/
theorem classes_agree_iff (doc:Value) : (∃c,∀r,classify (validators env r) doc=c) ↔ Portable env doc := by
 cases doc with
 | object msg=>
  simp only [Portable]
  cases hversion : isVersion (get msg (text "jsonrpc")) with
  | false=>
   refine iff_of_true ⟨.invalidRequest,fun r=>classify_unversioned hversion⟩ fun ht=>?_
   cases ht
  | true=>
   rw [forall_prop_of_true rfl]
   cases hmethod : get msg (text "method") with
   | none=>
    simp only [classify_response hversion hmethod]
    exact (responses_agree _).trans (responses_portable msg)
   | some method=>
    simp only [classify_method hversion hmethod]
    cases method with
    | string s=>exact requests_agree _
    | null=>exact null_methods_agree _
    | _=>
     refine iff_of_true ⟨.invalidRequest,fun r=>?_⟩ trivial
     cases r <;> rfl
 | _=>exact iff_of_true ⟨.invalidRequest,fun r=>rfl⟩ trivial
end

section
variable {env:Decoders} {line:List Char} {doc:Value}
lemma classifyMessage_some (r:Runtime) (hn:WellNamed doc) :
 classifyMessage env r (some doc)=classify (validators env r) doc := by
 cases r with
 | go=>exact go_classify hn
 | _=>rfl

lemma classify_ne (V:Validators) (msg:Value) : classify V msg≠.parseError ∧ classify V msg≠.stopped := by
 unfold classify
 split
 · simp
 · split
   · simp
   · split
     · split <;> simp
     · simp

lemma trimWith_ne_nil {p:Char → Bool} {c:Char} (hc:c∈line) (hp:p c=false) : trimWith p line≠[] := by
 intro h
 rw [trimWith,reverse_eq_nil_iff,dropWhile_eq_nil_iff] at h
 have ha:∀x∈line.dropWhile p,p x=true:=fun x hx=>h x (mem_reverse.2 hx)
 have hs:c∈line.takeWhile p++line.dropWhile p:=by
  rwa [takeWhile_append_dropWhile]
 rcases mem_append.1 hs with ht|hd
 · rw [mem_takeWhile_imp ht] at hp
   cases hp
 · rw [ha c hd] at hp
   cases hp

lemma not_blank (r:Runtime) (hr:env.read line=some doc) : isBlank r line=false := by
 obtain ⟨c,hc,hl,hh⟩:=env.read_visible _ _ (env.read_decoded r line doc hr)
 cases r with
 | go=>
  simp only [isBlank,decide_eq_false_iff_not]
  exact ne_nil_of_mem hc
 | python=>
  simp only [isBlank,decide_eq_false_iff_not]
  exact ne_nil_of_mem hc
 | typescript=>
  simp only [isBlank,decide_eq_false_iff_not]
  apply trimWith_ne_nil hc
  simp only [typescriptSpace,mem_cons,not_mem_nil,or_false,Bool.or_eq_false_iff,
   decide_eq_false_iff_not,Bool.and_eq_false_iff]
  omega
 | rust=>
  simp only [isBlank,all_eq_false]
  refine ⟨c,hc,?_⟩
  simp only [rustSpace,mem_cons,not_mem_nil,or_false,decide_eq_true_eq]
  omega

/-- What the decoders must have in common, for the sessions to see the same document or none. -/
def DecodersAgree (env:Decoders) (line:List Char) (doc:Value) : Prop :=
 (∀r,env.accepts r (decoded r line)=false) ∨
  (∀r,env.accepts r (decoded r line)=true) ∧ Portable env doc

lemma session_decoded (r:Runtime) (hrd:env.read line=some doc) (hs:size line≤2^16)
 (hrc:env.recursionError (decoded .python line)=false) :
 session env r line=classifyMessage env r (env.decode r line) := by
 have hl:(readLimit r).any (· < size line)=false:=by
  cases r <;> simp [readLimit] <;> omega
 have hr:¬(r=.python ∧ env.recursionError (decoded r line)=true):=by
  rintro ⟨rfl,hr⟩
  rw [hrc] at hr
  cases hr
 simp only [session,hl,not_blank r hrd,hr,Bool.false_eq_true,if_false]

lemma decode_eq (r:Runtime) (hr:env.read line=some doc) :
 env.decode r line=if env.accepts r (decoded r line) then some doc else none := by
 rw [Decoders.decode,env.read_decoded r line doc hr]

lemma classifyMessage_decode (r:Runtime) (hr:env.read line=some doc) (hn:WellNamed doc) :
 classifyMessage env r (env.decode r line) =
  if env.accepts r (decoded r line) then classify (validators env r) doc else .parseError := by
 rw [decode_eq r hr]
 split
 · exact classifyMessage_some r hn
 · cases r <;> rfl

lemma decoded_agree_iff (hrd:env.read line=some doc) (hn:WellNamed doc) :
 (∃c,∀r,classifyMessage env r (env.decode r line)=c) ↔ DecodersAgree env line doc := by
 simp only [classifyMessage_decode _ hrd hn]
 constructor
 · rintro ⟨c,hc⟩
   by_cases hgo : env.accepts .go (decoded .go line)=true
   · have ha:∀r,env.accepts r (decoded r line)=true:=by
      intro r
      by_contra hr
      have heq:=(hc r).trans (hc .go).symm
      rw [if_neg hr,if_pos hgo] at heq
      exact (classify_ne _ _).1 heq.symm
     refine .inr ⟨ha,classes_agree_iff doc |>.1 ⟨c,fun r=>?_⟩⟩
     rw [←hc r,if_pos (ha r)]
   · left
     intro r
     by_contra hr
     have heq:=(hc r).trans (hc .go).symm
     rw [if_pos (by simpa using hr),if_neg hgo] at heq
     exact (classify_ne _ _).1 heq
 · rintro (hnn|⟨hal,hp⟩)
   · exact ⟨.parseError,fun r=>by simp [hnn r]⟩
   · obtain ⟨c,hc⟩:=(classes_agree_iff doc).2 hp
     exact ⟨c,fun r=>by simp [hal r,hc r]⟩

lemma session_typescript (hr:env.read line=some doc) (hn:WellNamed doc) :
 session env .typescript line≠.stopped := by
 have hs:session env .typescript line =
   classifyMessage env .typescript (env.decode .typescript line):=by
  simp [session,readLimit,not_blank .typescript hr]
 rw [hs,classifyMessage_decode _ hr hn]
 split
 · exact (classify_ne _ _).2
 · simp

lemma classOf_ne_blank (parsed:Parsed Unit) : Go.classOf parsed≠.blank := by
 unfold Go.classOf
 split
 · split
   · split_ifs <;> simp
   · simp
 · simp
 · split <;> simp

lemma dropCR_eq_nil : dropCR line=[] ↔ line=[] ∨ line=['\r'] := by
 unfold dropCR
 split
 · next hl=>
   obtain ⟨front,rfl⟩:=getLast?_eq_some_iff.1 hl
   simp
 · next hl=>
   constructor
   · exact .inl
   · rintro (rfl|rfl)
     · rfl
     · exact absurd rfl hl

lemma session_blank (r:Runtime) (h:line=[] ∨ line=['\r']) : session env r line=.blank := by
 have hl:(readLimit r).any (· < size line)=false:=by
  rcases h with rfl|rfl <;> cases r <;> decide
 have hb:isBlank r line=true:=by
  rcases h with rfl|rfl <;> cases r <;> decide
 simp [session,hl,hb]

/-- The sessions of the four runtimes agree on a line with a JSON document exactly if it is not
  too long for Python's reader or too deep for its decoder, the decoders accept it alike, and the
  message is portable. They all ignore a line exactly if there is nothing in it. -/
theorem sessions_agree_iff (env:Decoders) (line:List Char) (doc:Value)
  (hread:env.read line=some doc) (hnamed:WellNamed doc) : ((∃c,∀r,session env r line=c) ↔
   size line≤2^16 ∧ env.recursionError (decoded .python line)=false ∧
    DecodersAgree env line doc) ∧
  ∀other,(∀r,session env r other=.blank) ↔ other=[] ∨ other=['\r'] := by
 constructor
 · constructor
   · rintro ⟨c,hc⟩
     have hrn:session env .python line≠.stopped := by
      rw [hc .python,← hc .typescript]
      exact session_typescript hread hnamed
     have hs:size line≤2^16 := by
      by_contra hlong
      have hl:(readLimit .python).any (· < size line)=true := by
       simp [readLimit]
       omega
      exact hrn (if_pos hl)
     have hr:env.recursionError (decoded .python line)=false := by
      by_contra hraised
      refine hrn ?_
      have hl:(readLimit .python).any (· < size line)=false := by
       simp [readLimit]
       omega
      simp [session,hl,not_blank .python hread,hraised]
     refine ⟨hs,hr,(decoded_agree_iff hread hnamed).1 ⟨c,fun r=>?_⟩⟩
     rw [← session_decoded r hread hs hr,hc r]
   · rintro ⟨hs,hr,ha⟩
     obtain ⟨c,hc⟩:=(decoded_agree_iff hread hnamed).2 ha
     exact ⟨c,fun r=>(session_decoded r hread hs hr).trans (hc r)⟩
 · intro other
   constructor
   · intro h
     have hgo:=h .go
     unfold session at hgo
     split at hgo
     · cases hgo
     · split at hgo
       · next hb=>exact dropCR_eq_nil.1 (by simpa [isBlank] using hb)
       · simp only [reduceCtorEq,false_and,if_false] at hgo
         exact absurd hgo (classOf_ne_blank _)
   · exact fun h r=>session_blank r h
end

def exactValue (n:Number) : ℚ :=
 if n.isInteger then n.integer
 else
  let digits : ℕ:=n.fraction.foldl (fun m digit=>10*m+digit.val) n.whole
  let mantissa : ℤ:=if n.negative then -digits else digits
  let exponent : ℤ:=n.exponent.getD 0-n.fraction.length
  if 0≤exponent then mkRat (mantissa*10^exponent.natAbs) 1
  else mkRat mantissa (10^exponent.natAbs)

def exactReader : DoubleReader where
 read n:=some (exactValue n)
 exact n h _ := by simp [exactValue,h]
 large n q h hlarge hread _ := by
  have hvalue:(n.integer : ℚ)=q := by simpa [exactValue,h] using hread
  rw [← hvalue,Rat.num_intCast]
  exact hlarge

def exactSerde : SerdeReader where
 toDoubleReader:=exactReader
 number:=serdeNumber
 unsigned n hi hn h:=if_pos ⟨hi,by simp [hn],h⟩
 signed n hi hn hz h:=by rw [serdeNumber,if_neg (by simp [hn]),if_pos ⟨hi,hn,hz,h⟩]
 double n h:=by
  refine (if_neg ?_).trans (if_neg ?_)
  · rintro ⟨hi,hn,hl⟩
    exact absurd hl (Nat.not_lt.2 ((h hi).1 (by simpa using hn)))
  · rintro ⟨hi,hn,hz,hl⟩
    exact ((h hi).2 hn).elim hz (Nat.not_lt.2 hl)

def soleDecoders (line:List Char) (doc:Value) (hdecoded:∀r,decoded r line=line)
  (hvisible:∃c∈line,33≤c.toNat ∧ c.toNat≤126) : Decoders where
 read l:=if l=line then some doc else none
 accepts _ _:=true
 recursionError _:=false
 typescript:=exactReader
 rust:=exactSerde
 read_visible l d h := by
  by_cases hl : l=line
  · rwa [hl]
  · simp [hl] at h
 read_decoded r l d h := by
  by_cases hl : l=line
  · subst hl
    rwa [hdecoded r]
  · simp [hl] at h

lemma soleDecoders_read {line:List Char} {doc:Value} (hd:∀r,decoded r line=line)
 (hv:∃c∈line,33≤c.toNat ∧ c.toNat≤126) :
 (soleDecoders line doc hd hv).read line=some doc := if_pos rfl

def pingLine (id:String) : List Char :=
 ("\x7b\"jsonrpc\":\"2.0\",\"method\":\"ping\",\"id\":"++id++"\x7d").toList

def pingMessage (id:Number) : Value :=
 .object [(text "jsonrpc",.string (text "2.0")),(text "method",.string (text "ping")),
  (text "id",.number id)]

lemma pingMessage_wellNamed (id:Number) : WellNamed (pingMessage id) := by
 have hn:∀key∈[text "jsonrpc",text "method",text "id"],
   ∀name∈[text "jsonrpc",text "id",text "method",text "params"],
    matchesField name key=true → key=name:=by decide
 exact ⟨by simp [text],fun m hm=>hn m.1 (mem_map_of_mem hm)⟩

def integerDecoders : Decoders :=
 soleDecoders (pingLine "7") (pingMessage { whole:=7 }) (fun r=>by cases r <;> decide)
  ⟨'2',by decide⟩

def fractionDecoders : Decoders :=
 soleDecoders (pingLine "1.0") (pingMessage { whole:=1,fraction:=[0] })
  (fun r=>by cases r <;> decide) ⟨'2',by decide⟩

theorem integer_id_agreed : ∃c,∀r,session integerDecoders r (pingLine "7")=c := by
 refine (sessions_agree_iff integerDecoders (pingLine "7") (pingMessage { whole:=7 })
  (soleDecoders_read _ _) (pingMessage_wellNamed _)).1.2 ⟨by decide,rfl,.inr ⟨fun r=>rfl,fun _ v hv=>?_⟩⟩
 cases hv
 intro n hn hd
 cases hn
 cases hd

/-- `1.0` is an id for TypeScript and Rust only; a line of one space is a parse error for Go. -/
theorem fraction_id_and_space_not_agreed :
  fractionDecoders.read (pingLine "1.0")=some (pingMessage { whole:=1,fraction:=[0] }) ∧
  WellNamed (pingMessage { whole:=1,fraction:=[0] }) ∧
  session fractionDecoders .go (pingLine "1.0")=.invalidRequest ∧
  session fractionDecoders .python (pingLine "1.0")=.invalidRequest ∧
  session fractionDecoders .typescript (pingLine "1.0")=.request (some (.integer 1)) ∧
  session fractionDecoders .rust (pingLine "1.0")=.request (some (.integer 1)) ∧
  session fractionDecoders .go [' ']=.parseError ∧
  session fractionDecoders .python [' ']=.blank := by
 refine ⟨soleDecoders_read _ _,pingMessage_wellNamed _,?_,?_,?_,?_,?_,?_⟩ <;> decide
end InvariantProtocol.MessageClasses
