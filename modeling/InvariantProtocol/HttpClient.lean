import InvariantProtocol.GoResult
import InvariantProtocol.PercentEncoding
import Mathlib.Data.List.Sort
/-! The outbound HTTP client of the Go runtime. Go strings are byte strings here, since `net/url`
escapes bytes. -/
namespace InvariantProtocol.HttpClient
open PercentEncoding

def text (s:String) : Bytes:=s.toUTF8.data.toList

structure ClientError where
 format : String
 args : List Bytes:=[]
 deriving DecidableEq

abbrev ClientResult (α:Type):=Except ClientError α

structure PathSegment where
 literal : Bytes:=[]
 field : Bytes:=[]
 multi : Bool:=false
 deriving DecidableEq

structure PathTemplate where
 segments : List PathSegment:=[]
 trailingSlash : Bool:=false
 deriving DecidableEq

def openBrace : UInt8:=123

def closeBrace : UInt8:=125

def equalSign : UInt8:=61

def trimByte (b:UInt8) (bs:Bytes) : Bytes :=
 ((bs.dropWhile (· = b)).reverse.dropWhile (· = b)).reverse

def variableParts (inner:Bytes) : Bytes×Bytes :=
 if equalSign∈inner then
  (inner.takeWhile (· ≠ equalSign),(inner.dropWhile (· ≠ equalSign)).tail)
 else (inner,text "*")

def parseSegment (last:Bool) (raw:Bytes) : ClientResult PathSegment :=
 if raw.head?=some openBrace ∧ raw.getLast?=some closeBrace then
  let (field,wildcard):=variableParts raw.tail.dropLast
  if field=[] then .error ⟨"empty field in variable segment",[]⟩
  else if wildcard=text "*" ∨ wildcard=[] then .ok { field }
  else if wildcard=text "**" then
   if last then .ok { field,multi:=true }
   else .error ⟨"** wildcard is only supported in the final segment",[]⟩
  else .error ⟨"unsupported wildcard pattern %q",[wildcard]⟩
 else .ok { literal:=raw }

def parseSegments : List Bytes → ClientResult (List PathSegment)
 | []=>.ok []
 | raw::rest=>do
  let segment ← parseSegment rest.isEmpty raw
  let segments ← parseSegments rest
  return segment::segments

def parsePathTemplate (pattern:Bytes) : ClientResult PathTemplate :=
 if pattern.head?≠some slash then .error ⟨"path must start with '/'",[]⟩
 else if trimByte slash pattern=[] then .ok {}
 else do
  let segments ← parseSegments ((trimByte slash pattern).splitOn slash)
  return { segments,trailingSlash:=1<pattern.length ∧ pattern.getLast?=some slash }

section

structure FieldInfo (M:Type) where
 jsonName : Bytes
 message : Option M

variable {M:Type} (lookupField:M → Bytes → Option (FieldInfo M)) (fullName:M → Bytes)
def dot : UInt8:=46

def jsonParts (message:M) (before:List Bytes) : List Bytes → ClientResult (List Bytes)
 | []=>.ok []
 | part::rest=>
  let path:=[dot].intercalate (before++[part])
  match lookupField message part with
  | none=>.error ⟨"field %q does not exist in %s",[path,fullName message]⟩
  | some info=>
   if rest=[] then .ok [info.jsonName]
   else match info.message with
    | none=>.error ⟨"field %q is not a message",[path]⟩
    | some inner=>do
     let names ← jsonParts inner (before++[part]) rest
     return info.jsonName::names

def protobufJSONFieldPath (message:M) (fieldPath:Bytes) : ClientResult Bytes:=do
 let names ← jsonParts lookupField fullName message [] (fieldPath.splitOn dot)
 return [dot].intercalate names

structure HttpClientBinding where
 body : Bytes
 template : PathTemplate
 connect : Bool:=false
 deriving DecidableEq

def bindSegment (request:M) (pattern:Bytes) (segment:PathSegment) : ClientResult PathSegment :=
 if segment.field=[] then .ok segment
 else match protobufJSONFieldPath lookupField fullName request segment.field with
  | .ok field=>.ok { segment with field }
  | .error cause=>.error ⟨"invalid route pattern %q: "++cause.format,pattern::cause.args⟩

def bindBody (request:M) (body:Bytes) : ClientResult Bytes :=
 if body=[] ∨ body=text "*" then .ok body
 else (protobufJSONFieldPath lookupField fullName request body).mapError fun cause=>
  ⟨"invalid body selector %q: "++cause.format,body::cause.args⟩

def newHTTPClientBinding (pattern body:Bytes) (request:M) : ClientResult HttpClientBinding:=do
 let template ← (parsePathTemplate pattern).mapError fun cause=>
  ⟨"invalid route pattern %q: "++cause.format,pattern::cause.args⟩
 let segments ← template.segments.mapM (bindSegment lookupField fullName request pattern)
 let body ← bindBody lookupField fullName request body
 return { body,template:={ template with segments } }
end

/-- A value of the request's JSON. A number is held as the text `FormatFloat` gives it, and an
  object as its names and their values. -/
inductive Json where
 | null
 | bool (b:Bool)
 | number (digits:Bytes)
 | string (s:Bytes)
 | array (items:List Json)
 | object (names:List Bytes) (members:List Json)

def Json.member (v:Json) (name:Bytes) : Option Json :=
 match v with
 | .object names members=>(names.zip members).lookup name
 | _=>none

def getNestedField (root:Json) (fieldPath:Bytes) : Option Json :=
 (fieldPath.splitOn dot).foldlM Json.member root

def removeMember (name:Bytes) : List Bytes → List Json → List Bytes×List Json
 | n::names,v::members=>
  if n=name then (names,members)
  else ((n::(removeMember name names members).1),(v::(removeMember name names members).2))
 | names,members=>(names,members)

def updateMember (name:Bytes) (f:Json → Json) : List Bytes → List Json → List Json
 | n::names,v::members=>
  if n=name then f v::members else v::updateMember name f names members
 | _,members=>members

def deleteParts : List Bytes → Json → Json
 | [name],.object names members=>
  .object (removeMember name names members).1 (removeMember name names members).2
 | name::rest,.object names members=>
  .object names (updateMember name (deleteParts rest) names members)
 | _,v=>v

def deleteNestedField (root:Json) (fieldPath:Bytes) : Json:=deleteParts (fieldPath.splitOn dot) root

def scalarToString : Json → ClientResult Bytes
 | .string s=>.ok s
 | .bool b=>.ok (text (if b then "true" else "false"))
 | .number digits=>.ok digits
 | .null=>.error ⟨"expected scalar value, got <nil>",[]⟩
 | .array _=>.error ⟨"expected scalar value, got []interface {}",[]⟩
 | .object _ _=>.error ⟨"expected scalar value, got map[string]interface {}",[]⟩

def unreserved (b:UInt8) : Bool :=
 (97≤b && b≤122) || (65≤b && b≤90) || (48≤b && b≤57) || b∈text "-_.~"

/-- The bytes `net/url` leaves alone in a path, in a path segment, and in a query component. -/
def keepPath (b:UInt8) : Bool:=unreserved b || b∈text "$&+,/:;=@"

def keepSegment (b:UInt8) : Bool:=unreserved b || b∈text "$&+:=@"

def pathEscape (s:Bytes) : Bytes:=escape keepSegment s

def queryEscape (s:Bytes) : Bytes :=
 s.flatMap fun b=>if b=32 then text "+" else escapeByte unreserved b

/-- `Values.Encode`: by key, and under one key in the order of the calls of `Add`. -/
def encodeValues (query:List (Bytes×Bytes)) : Bytes :=
 (text "&").intercalate ((query.insertionSort fun a b=>¬b.1<a.1).map fun p=>
  queryEscape p.1++text "="++queryEscape p.2)

/-- A base URL as `url.Parse` returns it for a URL with a host; `rawPath` is the spelling of `path`
  where that is not the default one. -/
structure BaseURL where
 origin : Bytes
 path : Bytes
 rawPath : Bytes
 forceQuery : Bool:=false
 fragment : Bytes:=[]
 rooted : path≠[] → path.head?=some slash
 spelled : rawPath≠[] → unescape rawPath=some path

def validEncoded (s:Bytes) : Bool :=
 s.all fun b=>b∈text "!$&'()*+,;=:@[]%" || keepPath b

def escapedPath (path rawPath:Bytes) : Bytes :=
 if rawPath≠[] ∧ validEncoded rawPath=true ∧ unescape rawPath=some path then rawPath
 else if path=text "*" then path
 else escape keepPath path

def urlString (base:BaseURL) (path rawQuery:Bytes) : Bytes :=
 base.origin++escapedPath path base.rawPath ++
  (if base.forceQuery ∨ rawQuery≠[] then text "?"++rawQuery else []) ++
  (if base.fragment≠[] then text "#"++base.fragment else [])

def encodePathValue (v:Json) (multi:Bool) : ClientResult Bytes:=do
 let raw ← scalarToString v
 if multi then return [slash].intercalate ((raw.splitOn slash).map pathEscape)
 else return pathEscape raw

def expandSegment (args:Json) (segment:PathSegment) : ClientResult Bytes :=
 if segment.field=[] then .ok segment.literal
 else match getNestedField args segment.field with
  | none=>.error ⟨"missing path field %q",[segment.field]⟩
  | some raw=>(encodePathValue raw segment.multi).mapError fun cause=>
    ⟨"invalid path field %q: "++cause.format,segment.field::cause.args⟩

def expandPath (template:PathTemplate) (args:Json) : ClientResult (Bytes×List Bytes) :=
 if template.segments=[] then .ok ([slash],[])
 else do
  let parts ← template.segments.mapM (expandSegment args)
  let path:=slash::[slash].intercalate parts
  return (if template.trailingSlash then path++[slash] else path,
   (template.segments.filter fun segment=>segment.field≠[]).map fun segment=>segment.field)

-- `json.Marshal` of a body; its errors never arise for decoded JSON.
variable (marshal:Json → Bytes)
def encodeBody (b:HttpClientBinding) (args:Json) : Option Bytes×Bytes :=
 if b.body=[] then (none,[])
 else if b.body=text "*" then
  match args with
  | .object [] _=>if b.connect then (some (marshal args),b.body) else (none,b.body)
  | _=>(some (marshal args),b.body)
 else ((getNestedField args b.body).map marshal,b.body)

def queryValue (key:Bytes) (v:Json) : ClientResult (Bytes×Bytes) :=
 match scalarToString v with
 | .ok raw=>.ok (key,raw)
 | .error cause=>.error ⟨"invalid query value for %q: "++cause.format,key::cause.args⟩

mutual

def encodeQueryFields (start:Bytes) : Json → ClientResult (List (Bytes×Bytes))
 | .null=>.ok []
 | .object names members=>do
  let fields ← ((memberQueries start names members).insertionSort fun a b=>¬b.1<a.1).mapM
   fun field=>field.2
  return fields.flatten
 | .array items=>items.mapM (queryValue start)
 | .bool b=>do return [← queryValue start (.bool b)]
 | .number digits=>do return [← queryValue start (.number digits)]
 | .string s=>do return [← queryValue start (.string s)]

def memberQueries (start:Bytes) :
  List Bytes → List Json → List (Bytes×ClientResult (List (Bytes×Bytes)))
 | name::names,v::members=>
  (name,encodeQueryFields (if start=[] then name else start++dot::name) v) ::
   memberQueries start names members
 | _,_=>[]
end

def basePath (base:BaseURL) : Bytes :=
 if base.path.getLast?=some slash then base.path.dropLast else base.path

def joinBasePath (base:BaseURL) (endpoint:Bytes) : Bytes :=
 if basePath base=[] then endpoint
 else if endpoint=[slash] then basePath base++[slash]
 else basePath base++endpoint

def encodeQuery (b:HttpClientBinding) (args:Json) : ClientResult (List (Bytes×Bytes)) :=
 if b.body≠text "*" then encodeQueryFields [] args else .ok []

def build (b:HttpClientBinding) (args:Json) (base:BaseURL) :
  ClientResult (Option Bytes×Bytes):=do
 let (endpoint,consumed) ← expandPath b.template args
 let working:=consumed.foldl deleteNestedField args
 let (body,consumedBody):=encodeBody marshal b working
 let remaining:=if consumedBody≠[] ∧ consumedBody≠text "*" then
  deleteNestedField working consumedBody else working
 let query ← encodeQuery b remaining
 return (body,urlString base (joinBasePath base endpoint) (encodeValues query))
end InvariantProtocol.HttpClient
