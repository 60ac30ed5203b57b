import InvariantProtocol.ListRelations
namespace InvariantProtocol.JsonSchemas
open List ListRelations

structure FieldInfo where
 name : String
 jsonName : String
 type : ℤ
 typeName : String
 label : ℤ
 comment : String
 oneofIndex : Option ℤ
 optional : Bool

structure MessageInfo where
 fields : List FieldInfo
 oneofs : List (List String)
 isMapEntry : Bool

structure ParsedDescriptor where
 messages : List (String×MessageInfo)
 enums : List (String×List String)

/-- The keywords of a schema, by their pointers, with the texts of their values. -/
abbrev Keywords:=List (String×List String)

/-- `message` is the name of the expanded message, which the generated schema does not hold. A property
  has a name and a description; of those with one name the last is kept. -/
inductive Schema where
 | leaf (keywords:Keywords)
 | object (message:String) (properties:List (String×String×Schema)) (required:List String)
 | array (items:Schema)
 | map (values:Schema) (propertyNames:Keywords)

def typed (name:String) (more:Keywords) : Keywords:=("type",[name])::more

def signed : Keywords:=[("pattern",["^(0|-?[1-9][0-9]*)$"])]

def unsigned : Keywords:=[("pattern",["^(0|[1-9][0-9]*)$"])]

def protoJSONFloatSchema : Keywords :=
 [("oneOf/0/type",["number"]),("oneOf/1/type",["string"]),("oneOf/1/enum",["NaN","Infinity","-Infinity"])]

def wkt : List (String×Keywords) :=
 [("google.protobuf.Timestamp",typed "string" [("format",["date-time"])]),
  ("google.protobuf.Duration",typed "string" [("pattern",["^-?(?:0|[1-9][0-9]*)(?:\\.[0-9]\x7b1,9\x7d)?s$"])]),
  ("google.protobuf.Any",typed "object" []),
  ("google.protobuf.Struct",typed "object" []),
  ("google.protobuf.Value",[]),
  ("google.protobuf.Int64Value",typed "string" signed),
  ("google.protobuf.UInt64Value",typed "string" unsigned),
  ("google.protobuf.Int32Value",typed "integer" []),
  ("google.protobuf.UInt32Value",typed "integer" [("minimum",["0"])]),
  ("google.protobuf.BoolValue",typed "boolean" []),
  ("google.protobuf.StringValue",typed "string" []),
  ("google.protobuf.BytesValue",typed "string" [("contentEncoding",["base64"])]),
  ("google.protobuf.FieldMask",typed "string" []),
  ("google.protobuf.ListValue",typed "array" [("items",[])]),
  ("google.protobuf.Empty",typed "object" [("additionalProperties",["false"])])]

/-- The types that are neither enums nor messages, by their numbers. -/
def scalarSchema (type:ℤ) : Keywords :=
 if type∈[1,2] then protoJSONFloatSchema
 else if type∈[5,17,15] then typed "integer" []
 else if type∈[3,18,16] then typed "string" signed
 else if type∈[13,7] then typed "integer" [("minimum",["0"])]
 else if type∈[4,6] then typed "string" unsigned
 else if type=8 then typed "boolean" []
 else if type=9 then typed "string" []
 else if type=12 then typed "string" [("contentEncoding",["base64"])]
 else []

def propertyName (field:FieldInfo) : String:=if field.jsonName = "" then field.name else field.jsonName

def required (msg:MessageInfo) : List String :=
 (msg.fields.filter fun field=>field.label≠3 ∧ field.name∉msg.oneofs.flatten ∧ field.oneofIndex=none ∧
  ¬ field.optional).map propertyName

def propertyNames (type:ℤ) : Keywords :=
 if type=8 then [("enum",["false","true"])]
 else if type∈[5,3,17,18,15,16] then signed
 else if type∈[13,4,7,6] then unsigned
 else []

variable (parsed:ParsedDescriptor)
def enumSchema (typeName:String) : Keywords :=
 if typeName = "google.protobuf.NullValue" then typed "null" []
 else
  match parsed.enums.lookup typeName with
  | none=>typed "string" []
  | some names=>typed "string" [("enum",names)]

def isMapField (field:FieldInfo) : Bool :=
 field.label=3 && field.type=11 && (parsed.messages.lookup field.typeName).any MessageInfo.isMapEntry

/-! `messageSchema` is the call inside; a name it marks is deleted again after it. -/
section
variable (messageSchema:List String → String → MessageInfo → Option Schema) (visiting:List String)
def messageTypeSchema (typeName:String) : Option Schema :=
 if typeName∈["google.protobuf.DoubleValue","google.protobuf.FloatValue"] then some (.leaf protoJSONFloatSchema)
 else
  match wkt.lookup typeName with
  | some keywords=>some (.leaf keywords)
  | none=>
   if typeName∈visiting then some (.leaf (typed "object" []))
   else
    match parsed.messages.lookup typeName with
    | none=>some (.leaf (typed "object" []))
    | some msg=>messageSchema (typeName::visiting) typeName msg

def fieldTypeSchema (field:FieldInfo) : Option Schema :=
 if field.type=14 then some (.leaf (enumSchema parsed field.typeName))
 else if field.type=11 then messageTypeSchema parsed messageSchema visiting field.typeName
 else some (.leaf (scalarSchema field.type))

def mapSchema (entry:MessageInfo) : Option Schema :=
 match (entry.fields.filter fun f=>f.name = "value").getLast? with
 | none=>some (.leaf (typed "object" []))
 | some value=>
  let keys:=((entry.fields.filter fun f=>f.name = "key").getLast?.map fun f=>propertyNames f.type).getD []
  (fieldTypeSchema parsed messageSchema visiting value).map fun values=>.map values keys

def propertySchema (field:FieldInfo) : Option Schema :=
 if isMapField parsed field then
  match parsed.messages.lookup field.typeName with
  | some entry=>mapSchema parsed messageSchema visiting entry
  | none=>some (.leaf (typed "object" []))
 else if field.label=3 then (fieldTypeSchema parsed messageSchema visiting field).map .array
 else fieldTypeSchema parsed messageSchema visiting field
end

/-- `none` is a recursion that is not over after `n` nested calls. -/
def messageSchema : ℕ → List String → String → MessageInfo → Option Schema
 | 0,_,_,_=>none
 | n+1,visiting,name,msg=>
  (msg.fields.mapM fun field=>(propertySchema parsed (messageSchema n) visiting field).map fun s=>
   (propertyName field,field.comment,s)).map fun properties=>.object name properties (required msg)

def messageToSchema (n:ℕ) (fullName:String) : Option Schema :=
 match parsed.messages.lookup fullName with
 | none=>some (.leaf (typed "object" []))
 | some msg=>messageSchema parsed n [] fullName msg

/-- The names of the messages expanded along a path from the root of a schema. -/
inductive Path : Schema → List String → Prop where
 | leaf {keywords:Keywords} : Path (.leaf keywords) []
 | ends {name:String} {properties:List (String×String×Schema)} {needed:List String} :
  Path (.object name properties needed) [name]
 | property {name:String} {properties:List (String×String×Schema)} {needed:List String}
  {p:String×String×Schema} {names:List String} (mem:p∈properties) (path:Path p.2.2 names) :
  Path (.object name properties needed) (name::names)
 | items {s:Schema} {names:List String} (path:Path s names) : Path (.array s) names
 | values {s:Schema} {keys:Keywords} {names:List String} (path:Path s names) : Path (.map s keys) names

/-- A schema is found, in which no message is expanded inside of itself or of one that is visited. -/
def Fresh (visiting:List String) (result:Option Schema) : Prop :=
 ∃s,result=some s ∧ ∀names,Path s names → names.Nodup ∧ ∀x∈names,x∉visiting

def Below (visiting:List String) (name:String) (result:Option Schema) : Prop :=
 ∃s,result=some s ∧ ∀names,Path s names → ∃rest,names=name::rest ∧ rest.Nodup ∧ ∀x∈rest,x∉visiting

def unvisited (visiting:List String) : ℕ:=((parsed.messages.map Prod.fst).filter (·∉visiting)).length

variable {parsed} {visiting:List String} {recur:List String → String → MessageInfo → Option Schema}
lemma fresh_leaf (keywords:Keywords) : Fresh visiting (some (.leaf keywords)) := by
 refine ⟨_,rfl,fun names h=>?_⟩
 cases h
 simp

lemma Fresh.array {result:Option Schema} (h:Fresh visiting result) : Fresh visiting (result.map .array) := by
 obtain ⟨s,rfl,hs⟩:=h
 refine ⟨_,rfl,fun names hp=>?_⟩
 cases hp with
 | items hp=>exact hs names hp

lemma Fresh.map {result:Option Schema} (h:Fresh visiting result) (keys:Keywords) :
 Fresh visiting (result.map fun s=>.map s keys) := by
 obtain ⟨s,rfl,hs⟩:=h
 refine ⟨_,rfl,fun names hp=>?_⟩
 cases hp with
 | values hp=>exact hs names hp

section
variable (h:∀name msg,name∉visiting → parsed.messages.lookup name=some msg →
 Below (name::visiting) name (recur (name::visiting) name msg))
include h

lemma messageTypeSchema_fresh (typeName:String) :
 Fresh visiting (messageTypeSchema parsed recur visiting typeName) := by
 unfold messageTypeSchema
 split
 · exact fresh_leaf _
 · split
   · exact fresh_leaf _
   · split
     · exact fresh_leaf _
     · next hv=>
       split
       · exact fresh_leaf _
       · next msg hm=>
         obtain ⟨s,hs,hp⟩:=h typeName msg hv hm
         refine ⟨s,hs,fun names hn=>?_⟩
         obtain ⟨rest,rfl,hd,hr⟩:=hp names hn
         refine ⟨nodup_cons.2 ⟨fun hm=>hr _ hm mem_cons_self,hd⟩,forall_mem_cons.2 ⟨hv,fun x hx hm=>?_⟩⟩
         exact hr x hx (mem_cons_of_mem _ hm)

lemma fieldTypeSchema_fresh (field:FieldInfo) : Fresh visiting (fieldTypeSchema parsed recur visiting field) := by
 unfold fieldTypeSchema
 split_ifs
 · exact fresh_leaf _
 · exact messageTypeSchema_fresh h _
 · exact fresh_leaf _

lemma propertySchema_fresh (field:FieldInfo) : Fresh visiting (propertySchema parsed recur visiting field) := by
 unfold propertySchema mapSchema
 split_ifs
 · split
   · split
     · exact fresh_leaf _
     · exact (fieldTypeSchema_fresh h _).map _
   · exact fresh_leaf _
 · exact (fieldTypeSchema_fresh h _).array
 · exact fieldTypeSchema_fresh h _
end

lemma unvisited_lt {name:String} {msg:MessageInfo} (hv:name∉visiting)
 (hm:parsed.messages.lookup name=some msg) : unvisited parsed (name::visiting)<unvisited parsed visiting := by
 obtain ⟨before,after,hl,-⟩:=lookup_eq_some_iff.1 hm
 have hs:∀names:List String,names.filter (·∉name::visiting)=(names.filter (·∉visiting)).filter (·≠name):=by
  simp [filter_filter,not_or]
 rw [unvisited,unvisited,hs,length_filter_lt_length_iff_exists]
 exact ⟨name,by simp [hl,hv],by simp⟩

lemma messageSchema_below {n:ℕ} (hn:unvisited parsed visiting<n) (name:String) (msg:MessageInfo) :
 Below visiting name (messageSchema parsed n visiting name msg) := by
 induction n generalizing visiting name msg with
 | zero=>omega
 | succ n ih=>
  have hf:=@propertySchema_fresh parsed visiting (messageSchema parsed n) fun t m hv hm=>
   ih ((unvisited_lt hv hm).trans_le (by omega)) t m
  obtain ⟨ps,hp⟩:=exists_forall₂.2 fun field (_:field∈msg.fields)=>
   (⟨_,Option.map_eq_some_iff.2 ⟨_,(hf field).choose_spec.1,rfl⟩⟩:∃p,(propertySchema parsed (messageSchema parsed n)
    visiting field).map (fun s=>(propertyName field,field.comment,s))=some p)
  refine ⟨_,by rw [messageSchema,mapM_eq_some.2 hp];rfl,fun names hn=>?_⟩
  cases hn with
  | ends=>exact ⟨[],rfl,nodup_nil,by simp⟩
  | property hm hn=>
   obtain ⟨field,-,hq⟩:=forall₂_mem_right hp hm
   obtain ⟨s,hs,hall⟩:=hf field
   rw [hs] at hq
   cases hq
   exact ⟨_,rfl,hall _ hn⟩

theorem schema_expansion_bounded (parsed:ParsedDescriptor) (fullName:String) :
  ∀k,∃s,messageToSchema parsed (parsed.messages.length+1+k) fullName=some s ∧
   ∀names,Path s names → names=[] ∨ ∃rest,names=fullName::rest ∧ rest.Nodup := by
 intro k
 unfold messageToSchema
 split
 · refine ⟨_,rfl,fun names hp=>?_⟩
   cases hp
   exact .inl rfl
 · have hu:unvisited parsed []<parsed.messages.length+1+k:=((length_filter_le _ _).trans_eq (length_map _)).trans_lt (by omega)
   obtain ⟨s,hs,hp⟩:=messageSchema_below hu fullName _
   refine ⟨s,hs,fun names h=>.inr ?_⟩
   obtain ⟨rest,hr,hd,-⟩:=hp names h
   exact ⟨rest,hr,hd⟩
end InvariantProtocol.JsonSchemas
