import InvariantProtocol.RequestSelectors
/-! The outbound HTTP client of the TypeScript runtime. A lookup by `in` and `[]` also sees the members
a JavaScript object inherits. -/
namespace InvariantProtocol.TypeScriptClient
open List ListRelations GoResult PercentEncoding HttpClient RequestSelectors

inductive Prototype where
 | object
 | array

inductive JsValue where
 | json (v:Json)
 | function (name:Bytes)
 | prototype (p:Prototype)

def protoKey : Bytes:=text "__proto__"

def constructorKey : Bytes:=text "constructor"

def objectMethods : List Bytes :=
 [text "__defineGetter__",text "__defineSetter__",text "hasOwnProperty",text "__lookupGetter__",
  text "__lookupSetter__",text "isPrototypeOf",text "propertyIsEnumerable",text "toString",
  text "valueOf",text "toLocaleString"]

def arrayMethods : List Bytes :=
 [text "at",text "concat",text "copyWithin",text "fill",text "find",text "findIndex",
  text "findLast",text "findLastIndex",text "lastIndexOf",text "pop",text "push",text "reverse",
  text "shift",text "unshift",text "slice",text "sort",text "splice",text "includes",
  text "indexOf",text "join",text "keys",text "entries",text "values",text "forEach",
  text "filter",text "flat",text "flatMap",text "map",text "every",text "some",text "reduce",
  text "reduceRight",text "toReversed",text "toSorted",text "toSpliced",text "with"]

def inheritedNames : List Bytes:=protoKey::constructorKey::objectMethods

def objectFunction (name:Bytes) : Option JsValue :=
 if name=constructorKey then some (.function (text "Object"))
 else if name∈objectMethods then some (.function name)
 else none

def arrayFunction (name:Bytes) : Option JsValue :=
 if name=constructorKey then some (.function (text "Array"))
 else if name∈arrayMethods ∨ name∈objectMethods then some (.function name)
 else none

def decimal (n:Nat) : Bytes:=text (toString n)

def arrayMember (items:List Json) (name:Bytes) : Option Json :=
 if name=text "length" then some (.number (decimal items.length))
 else ((range items.length).find? fun i=>decimal i=name).bind fun i=>items[i]?

/-- `current[part]` where `current` is an object and `part in current`. -/
def JsValue.property : JsValue → Bytes → Option JsValue
 | .json (.object names members),part=>
  match (Json.object names members).member part with
  | some v=>some (.json v)
  | none=>if part=protoKey then some (.prototype .object) else objectFunction part
 | .json (.array items),part=>
  match arrayMember items part with
  | some v=>some (.json v)
  | none=>if part=protoKey then some (.prototype .array) else arrayFunction part
 | .prototype .object,part=>
  if part=protoKey then some (.json .null) else objectFunction part
 | .prototype .array,part=>
  if part=text "length" then some (.json (.number (decimal 0)))
  else if part=protoKey then some (.prototype .object)
  else arrayFunction part
 | _,_=>none

mutual

/-- `String(v)` where no object has a `toString` of its own. -/
def jsonText : Json → Bytes
 | .null=>text "null"
 | .bool b=>text (if b then "true" else "false")
 | .number digits=>digits
 | .string s=>s
 | .array items=>(text ",").intercalate (itemTexts items)
 | .object _ _=>text "[object Object]"

def itemTexts : List Json → List Bytes
 | []=>[]
 | .null::items=>[]::itemTexts items
 | item::items=>jsonText item::itemTexts items
end

def JsValue.toText : JsValue → Bytes
 | .json v=>jsonText v
 | .function name=>text "function "++name++text "() \x7b [native code] \x7d"
 | .prototype .object=>text "[object Object]"
 | .prototype .array=>[]

def quoteByte (b:UInt8) : Bytes :=
 if b=34 then text "\\\""
 else if b=92 then text "\\\\"
 else if b=8 then text "\\b"
 else if b=9 then text "\\t"
 else if b=10 then text "\\n"
 else if b=12 then text "\\f"
 else if b=13 then text "\\r"
 else if b<32 then
  text "\\u00"++[48+b / 16,if b % 16<10 then 48+b % 16 else 87+b % 16]
 else [b]

def quoteJson (s:Bytes) : Bytes:=text "\""++s.flatMap quoteByte++text "\""

mutual

def stringify : Json → Bytes
 | .null=>text "null"
 | .bool b=>text (if b then "true" else "false")
 | .number digits=>digits
 | .string s=>quoteJson s
 | .array items=>text "["++(text ",").intercalate (stringifyItems items)++text "]"
 | .object names members=>
  text "\x7b"++(text ",").intercalate (stringifyMembers names members)++text "\x7d"

def stringifyItems : List Json → List Bytes
 | []=>[]
 | item::items=>stringify item::stringifyItems items

def stringifyMembers : List Bytes → List Json → List Bytes
 | name::names,v::members=>
  (quoteJson name++text ":"++stringify v)::stringifyMembers names members
 | _,_=>[]
end

inductive BuildError where
 /-- The `invalid_argument` error for a path variable without a value. -/
 | missingPathField (field:Bytes)
 /-- `Buffer.from(undefined)`, where the value has no JSON text. -/
 | typeError
 deriving DecidableEq

def getNested (obj:JsValue) (path:Bytes) : Option JsValue :=
 (path.splitOn dot).foldlM JsValue.property obj

/-- `deleteNested` where the path leads through objects. On an array `delete` removes an item with a
  numeric name and throws for `length`; this returns the array. -/
def deleteNested (obj:Json) (path:Bytes) : Json:=deleteParts (path.splitOn dot) obj

def keepComponent (b:UInt8) : Bool :=
 (97≤b && b≤122) || (65≤b && b≤90) || (48≤b && b≤57) || b∈text "-_.!~*'()"

def encodeURIComponent (s:Bytes) : Bytes:=escape keepComponent s

def encodePathValue (v:JsValue) (multi:Bool) : Bytes :=
 if multi then [slash].intercalate ((v.toText.splitOn slash).map encodeURIComponent)
 else encodeURIComponent v.toText

def encodeJson : JsValue → Except BuildError Bytes
 | .json v=>.ok (stringify v)
 | .function _=>.error .typeError
 | .prototype .object=>.ok (text "\x7b\x7d")
 | .prototype .array=>.ok (text "[]")

def expandSegment (args:JsValue) (segment:PathSegment) : Except BuildError Bytes :=
 if segment.field=[] then .ok segment.literal
 else match getNested args segment.field with
  | none=>.error (.missingPathField segment.field)
  | some (.json .null)=>.error (.missingPathField segment.field)
  | some v=>.ok (encodePathValue v segment.multi)

def joinParts (template:PathTemplate) (parts:List Bytes) : Bytes :=
 let path:=slash::[slash].intercalate parts
 if template.trailingSlash then path++[slash] else path

def expand (template:PathTemplate) (args:JsValue) : Except BuildError (Bytes×List Bytes):=do
 let parts ← template.segments.mapM (expandSegment args)
 return (joinParts template parts,
  (template.segments.filter fun segment=>segment.field≠[]).map fun segment=>segment.field)

structure Binding where
 template : PathTemplate
 body : Bytes

def resolveFields {M:Type} (T:RequestTypes M) (input:M) (b:Binding) : Binding where
 template:={ b.template with
  segments:=b.template.segments.map fun segment=>
   if segment.field=[] then segment
   else { segment with field:=typescriptFieldPath T input segment.field } }
 body:=if b.body=[] ∨ b.body=text "*" then b.body else typescriptFieldPath T input b.body

def buildBody (b:Binding) (args:Json) : Except BuildError Bytes :=
 if b.body=[] then .ok []
 else if b.body=text "*" then .ok (stringify args)
 else match getNested (.json args) b.body with
  | none=>.ok []
  | some v=>encodeJson v

mutual

def encodeQuery (start:Bytes) : Json → List (Bytes×Bytes)
 | .null=>[]
 | .array items=>encodeItems start items
 | .object names members=>encodeMembers start names members
 | .bool b=>if start=[] then [] else [(start,jsonText (.bool b))]
 | .number digits=>if start=[] then [] else [(start,digits)]
 | .string s=>if start=[] then [] else [(start,s)]

def encodeItems (start:Bytes) : List Json → List (Bytes×Bytes)
 | []=>[]
 | item::items=>encodeQuery start item++encodeItems start items

def encodeMembers (start:Bytes) : List Bytes → List Json → List (Bytes×Bytes)
 | name::names,v::members=>
  encodeQuery (if start=[] then name else start++dot::name) v++encodeMembers start names members
 | _,_=>[]
end

/-- The URL is `new URL(location)` with the parameters appended. -/
structure Built where
 body : Bytes
 location : Bytes
 params : List (Bytes×Bytes)
 deriving DecidableEq

def withoutSlash (baseUrl:Bytes) : Bytes :=
 if baseUrl.getLast?=some slash then baseUrl.dropLast else baseUrl

def build (b:Binding) (args:Json) (baseUrl:Bytes) : Except BuildError Built:=do
 let (path,consumed) ← expand b.template (.json args)
 let working:=consumed.foldl deleteNested args
 let body ← buildBody b working
 let remaining:=if b.body≠[] ∧ b.body≠text "*" then deleteNested working b.body else working
 return {
  body
  location:=withoutSlash baseUrl++path
  params:=if b.body≠text "*" then encodeQuery [] remaining else [] }

section

variable {name:Bytes}
lemma objectFunction_eq_none (h:name∉inheritedNames) : objectFunction name=none := by
 have hn:name≠protoKey ∧ name≠constructorKey ∧ name∉objectMethods:=by
  simpa only [inheritedNames,mem_cons,not_or] using h
 rw [objectFunction,if_neg hn.2.1,if_neg hn.2.2]

lemma ne_protoKey (h:name∉inheritedNames) : name≠protoKey := by
 intro heq
 exact h (heq ▸ mem_cons_self)

/-- What a lookup can find outside the request: no member of it is again part of the request. -/
inductive Foreign : JsValue → Prop
 | null : Foreign (.json .null)
 | function (name:Bytes) : Foreign (.function name)
 | prototype : Foreign (.prototype .object)

variable {x:JsValue}
lemma foreign_objectFunction (h:objectFunction name=some x) : Foreign x := by
 rw [objectFunction] at h
 split_ifs at h
 · exact Option.some.inj h ▸ .function _
 · exact Option.some.inj h ▸ .function _

lemma Foreign.property {y:JsValue} (hx:Foreign x) (h:x.property name=some y) : Foreign y := by
 cases hx with
 | null=>cases h
 | function=>cases h
 | prototype=>
  rw [JsValue.property] at h
  split_ifs at h
  · exact Option.some.inj h ▸ .null
  · exact foreign_objectFunction h

lemma Foreign.property_eq_none (hx:Foreign x) (hn:name∉inheritedNames) :
 x.property name=none := by
 cases hx with
 | null=>rfl
 | function=>rfl
 | prototype=>rw [JsValue.property,if_neg (ne_protoKey hn),objectFunction_eq_none hn]

variable {names:List Bytes}
lemma Foreign.lookup_eq_none (hx:Foreign x) (hne:names≠[])
 (hl:∀name,names.getLast?=some name → name∉inheritedNames) : names.foldlM JsValue.property x=none := by
 induction names generalizing x with
 | nil=>exact absurd rfl hne
 | cons name names ih=>
  rw [foldlM_cons]
  cases names with
  | nil=>rw [hx.property_eq_none (hl name rfl)];rfl
  | cons next names=>
   cases hp : x.property name with
   | none=>rfl
   | some y=>exact ih (hx.property hp) (by simp) (by simpa using hl)

lemma property_object {members:List Json} (ho:(Json.object names members).member name=none)
 (h:(JsValue.json (.object names members)).property name=some x) : Foreign x := by
 rw [JsValue.property,ho] at h
 dsimp only at h
 split_ifs at h
 · exact Option.some.inj h ▸ .prototype
 · exact foreign_objectFunction h

lemma property_object_eq_none {members:List Json}
 (ho:(Json.object names members).member name=none) (hn:name∉inheritedNames) :
 (JsValue.json (.object names members)).property name=none := by
 rw [JsValue.property,ho]
 dsimp only
 rw [if_neg (ne_protoKey hn),objectFunction_eq_none hn]

lemma property_member {v next:Json} (h:v.member name=some next) :
 (JsValue.json v).property name=some (.json next) := by
 cases v with
 | object names members=>rw [JsValue.property,h]
 | _=>cases h
end

section
variable {M:Type} {T:RequestTypes M} {m:M} {way:List M}
lemma property_scalar {v:Json} (hs:Shaped T m v) (hf:T.form m=.scalar) (name:Bytes) :
 (JsValue.json v).property name=none := by
 cases v <;> simp_all [Shaped,JsValue.property]

variable {names:List Bytes}
lemma lookup_eq {parts:List Bytes} (h:Addresses T m parts names way)
 (ho:∀x,ownForm T way=some x → T.form x=.scalar)
 (hl:∀name,names.getLast?=some name → name∉inheritedNames) {v:Json} (hs:Shaped T m v) :
 names.foldlM JsValue.property (.json v)=(emitted T m parts v).map .json := by
 induction h generalizing v with
 | @field m part f hfl=>
  by_cases hf : T.form m=.fields
  · obtain ⟨keys,members,rfl,-,-⟩:=hs.object_of_fields hf
    rw [emitted_field hf hfl]
    cases hm : (Json.object keys members).member f.jsonName with
    | none=>simp [property_object_eq_none hm (hl f.jsonName rfl)]
    | some next=>simp [property_member hm]
  · have hsc:=ho m (by simp [ownForm,hf])
    simp [emitted_own hf,property_scalar hs hsc]
 | @within m inner part f parts names way hfl ht hrs ih=>
  by_cases hf : T.form m=.fields
  · have hr:∀name,names.getLast?=some name → name∉inheritedNames:=by
     obtain ⟨first,rest,rfl⟩:=exists_cons_of_ne_nil hrs.ne_nil.2
     simpa using hl
    obtain ⟨keys,members,rfl,-,-⟩:=hs.object_of_fields hf
    rw [emitted_within hf hfl ht hrs.ne_nil.1,foldlM_cons]
    cases hm : (Json.object keys members).member f.jsonName with
    | none=>
     cases hp : (JsValue.json (.object keys members)).property f.jsonName with
     | none=>rfl
     | some x=>exact (property_object hm hp).lookup_eq_none hrs.ne_nil.2 hr
    | some next=>
     rw [property_member hm]
     exact ih (by simpa [ownForm,hf] using ho) hr
      (hs.member hf hfl ht hm)
  · have hsc:=ho m (by simp [ownForm,hf])
    simp [emitted_own hf,property_scalar hs hsc]

lemma getNested_eq {fieldPath:Bytes}
 (h:Addresses T m (fieldPath.splitOn dot) names way) (hd:∀name∈names,dot∉name) (x:JsValue) :
 getNested x (typescriptFieldPath T m fieldPath)=names.foldlM JsValue.property x := by
 rw [getNested,typescriptFieldPath,h.translated_eq fun _=>rfl,splitOn_intercalate dot hd h.ne_nil.2]

lemma typescriptFieldPath_eq {fieldPath:Bytes} (h:Addresses T m (fieldPath.splitOn dot) names way) :
 typescriptFieldPath T m fieldPath=[dot].intercalate names := by
 rw [typescriptFieldPath,h.translated_eq fun _=>rfl]
end

section
variable {args:JsValue} {e:BuildError} {b:Binding}
lemma expandSegment_error {segment:PathSegment} (h:expandSegment args segment=.error e) :
 e=.missingPathField segment.field := by
 unfold expandSegment at h
 split_ifs at h
 split at h <;> cases h <;> rfl

lemma expandSegment_ok {x:JsValue} {segment:PathSegment} (h:getNested args segment.field=some x)
 (hx:x≠.json .null) : ∃part,expandSegment args segment=.ok part := by
 by_cases hf : segment.field=[]
 · exact ⟨segment.literal,by rw [expandSegment,if_pos hf]⟩
 · refine ⟨encodePathValue x segment.multi,?_⟩
   rw [expandSegment,if_neg hf,h]
   split <;> simp_all

variable {template:PathTemplate}
lemma expand_error (h:expand template args=.error e) :
 ∃field,e=.missingPathField field := by
 unfold expand at h
 cases hp : template.segments.mapM (expandSegment args) with
 | error e' =>
  rw [hp] at h
  obtain ⟨segment,-,hs⟩:=mapM_error hp
  exact ⟨segment.field,by rw [←expandSegment_error hs];exact (Except.error.inj h).symm⟩
 | ok parts=>
  rw [hp] at h
  cases h

lemma expand_ok_segment {result:Bytes×List Bytes}
 (h:expand template args=.ok result) {segment:PathSegment} (hm:segment∈template.segments) :
 ∃part,expandSegment args segment=.ok part := by
 unfold expand at h
 obtain ⟨parts,hp,-⟩:=(bind_ok _ _ _).mp h
 obtain ⟨part,-,hpr⟩:=forall₂_mem_left (mapM_ok.mp hp) hm
 exact ⟨part,hpr⟩

variable {args:Json}
lemma buildBody_error (h:buildBody b args=.error e) : e=.typeError := by
 unfold buildBody at h
 split_ifs at h
 cases hvalue : getNested (.json args) b.body with
 | none=>simp [hvalue] at h
 | some x=>
  rw [hvalue] at h
  cases x with
  | json v=>cases h
  | function name=>cases h;rfl
  | prototype p=>cases p <;> cases h

lemma build_ok {baseUrl:Bytes} {built:Built} (h:build b args baseUrl=.ok built) :
 ∃path consumed,expand b.template (.json args)=.ok (path,consumed) ∧
  buildBody b (consumed.foldl deleteNested args)=.ok built.body ∧
  built.location=withoutSlash baseUrl++path := by
 rw [build,bind_ok] at h
 obtain ⟨⟨path,consumed⟩,hex,hr⟩:=h
 dsimp only at hr
 rw [bind_ok] at hr
 obtain ⟨body,hbd,hb⟩:=hr
 cases hb
 exact ⟨path,consumed,hex,hbd,rfl⟩

lemma build_of_expand {path:Bytes} {consumed:List Bytes}
 (hex:expand b.template (.json args)=.ok (path,consumed)) (baseUrl:Bytes) :
 ∃finish : Bytes → Built,(∀body,(finish body).body=body) ∧
  build b args baseUrl=(buildBody b (consumed.foldl deleteNested args)).map finish := by
 rw [build,hex]
 let working:=consumed.foldl deleteNested args
 let remaining:=if b.body≠[] ∧ b.body≠text "*" then deleteNested working b.body else working
 let finish : Bytes → Built:=fun body=>{
  body
  location:=withoutSlash baseUrl++path
  params:=if b.body≠text "*" then encodeQuery [] remaining else [] }
 refine ⟨finish,fun _=>rfl,?_⟩
 change (buildBody b working >>= fun body=>pure (finish body))=(buildBody b working).map finish
 cases buildBody b working <;> rfl
end

section
variable {M:Type} (T:RequestTypes M)
/-- A lookup returns nothing but the emitted field. -/
def ReadsEmitted (m:M) (fieldPath:Bytes) : Prop :=
 ∀args x,Shaped T m args → getNested (.json args) (typescriptFieldPath T m fieldPath)=some x →
  ∃v,emitted T m (fieldPath.splitOn dot) args=some v ∧ x=.json v

/-- A path variable for a field the request does not emit is reported as missing. -/
def UnsetVariable (m:M) (fieldPath:Bytes) : Prop :=
 ∀(b:Binding) segment args baseUrl,segment∈b.template.segments → segment.field=fieldPath →
  Shaped T m args → emitted T m (fieldPath.splitOn dot) args=none →
  ∃field,build (resolveFields T m b) args baseUrl=.error (.missingPathField field)

/-- A body selector for a field the request does not emit gives an empty body, unless a path variable
  is missing. -/
def UnsetBody (m:M) (fieldPath:Bytes) : Prop :=
 ∀(b:Binding) args baseUrl,b.body=fieldPath → Shaped T m args →
  emitted T m (fieldPath.splitOn dot) args=none →
  (∀built,build (resolveFields T m b) args baseUrl=.ok built → built.body=[]) ∧
  ∀e,build (resolveFields T m b) args baseUrl=.error e → ∃field,e=.missingPathField field

/-- The names a selector needs for its lookup to stay within the request. -/
def OwnNames (names:List Bytes) : Prop := ∀name,names.getLast?=some name → name∉inheritedNames

variable {T} {m:M} {fieldPath:Bytes} {names:List Bytes} {way:List M}
lemma getNested_emitted (h:Addresses T m (fieldPath.splitOn dot) names way)
 (hd:∀name∈names,dot∉name) (ho:∀x,ownForm T way=some x → T.form x=.scalar)
 (hl:OwnNames names) {args:Json} (hs:Shaped T m args) :
 getNested (.json args) (typescriptFieldPath T m fieldPath) =
  (emitted T m (fieldPath.splitOn dot) args).map .json := by
 rw [getNested_eq h hd,lookup_eq h ho hl hs]

lemma deleted_unset {parts:List Bytes} (h:Addresses T m parts names way) (consumed:List Bytes)
 {args:Json} (hs:Shaped T m args) (hn:emitted T m parts args=none) :
 Shaped T m (consumed.foldl deleteNested args) ∧
  emitted T m parts (consumed.foldl deleteNested args)=none := by
 induction consumed generalizing args with
 | nil=>exact ⟨hs,hn⟩
 | cons field consumed ih=>
  exact ih (hs.deleteParts _) (h.emitted_deleteParts hs _ hn)

lemma resolved_segment {b:Binding} {segment:PathSegment} (hm:segment∈b.template.segments)
 (hne:segment.field≠[]) : { segment with field:=typescriptFieldPath T m segment.field } ∈
  (resolveFields T m b).template.segments := by
 apply mem_map.mpr
 exact ⟨segment,hm,by rw [if_neg hne]⟩

lemma unsetVariable_of_ownNames (h:Addresses T m (fieldPath.splitOn dot) names way)
 (hne:fieldPath≠[]) (hd:∀name∈names,dot∉name)
 (ho:∀x,ownForm T way=some x → T.form x=.scalar) (hl:OwnNames names)
 (hn:names≠[[]]) : UnsetVariable T m fieldPath := by
 rintro b segment args baseUrl hmm rfl hs hnn
 have hf:typescriptFieldPath T m segment.field≠[]:=by
  intro heq
  exact hn ((intercalate_eq_iff h.ne_nil.2 (by simp)).mp ((typescriptFieldPath_eq h).symm.trans heq))
 have hm:=getNested_emitted h hd ho hl hs
 rw [hnn] at hm
 cases hex : expand (resolveFields T m b).template (.json args) with
 | error e=>
  obtain ⟨field,rfl⟩:=expand_error hex
  exact ⟨field,by rw [build,hex];rfl⟩
 | ok result=>
  obtain ⟨part,hp⟩:=expand_ok_segment hex (resolved_segment hmm hne)
  rw [expandSegment,if_neg hf,hm] at hp
  cases hp

lemma unsetBody_of_ownNames (h:Addresses T m (fieldPath.splitOn dot) names way) (hne:fieldPath≠[])
 (hst:fieldPath≠text "*") (hd:∀name∈names,dot∉name)
 (ho:∀x,ownForm T way=some x → T.form x=.scalar) (hl:OwnNames names)
 (hn:names≠[text "*"]) : UnsetBody T m fieldPath := by
 rintro b args baseUrl rfl hsh hnn
 have hs:(resolveFields T m b).body=typescriptFieldPath T m b.body:=by
  rw [resolveFields,if_neg (by simp [hne,hst])]
 have hb:typescriptFieldPath T m b.body≠text "*":=by
  intro heq
  exact hn ((intercalate_eq_iff h.ne_nil.2 (by decide)).mp ((typescriptFieldPath_eq h).symm.trans heq))
 -- The body is looked up after the path's fields have been deleted.
 have hem:∀consumed : List Bytes,
   buildBody (resolveFields T m b) (consumed.foldl deleteNested args)=.ok []:=by
  intro consumed
  obtain ⟨hs',hn'⟩:=deleted_unset h consumed hsh hnn
  have hm:=getNested_emitted h hd ho hl hs'
  rw [hn'] at hm
  rw [buildBody,hs,if_neg hb,hm]
  split_ifs <;> rfl
 constructor
 · intro built hbl
   obtain ⟨path,consumed,-,hb,-⟩:=build_ok hbl
   rw [hem] at hb
   exact (Except.ok.inj hb).symm
 · intro e her
   cases hex : expand (resolveFields T m b).template (.json args) with
   | error e' =>
    rw [build,hex] at her
    obtain ⟨field,rfl⟩:=expand_error hex
    exact ⟨field,(Except.error.inj her).symm⟩
   | ok result=>
    obtain ⟨finish,-,hbd⟩:=build_of_expand hex baseUrl
    rw [hbd,hem] at her
    cases her

/-- A request that emits the message around the addressed field, but not the field. -/
theorem exists_emptyParent {parts:List Bytes} (h:Addresses T m parts names way)
 (hf:∀x∈way,T.form x=.fields) : ∃args,Shaped T m args ∧ emitted T m parts args=none ∧
  ∀name,names.getLast?=some name → names.foldlM JsValue.property (.json args) =
   (JsValue.json (.object [] [])).property name := by
 induction h with
 | @field m part f hfl=>
  have hfr:=hf m (by simp)
  refine ⟨.object [] [],by simp [Shaped,ShapedMembers,hfr],?_,?_⟩
  · rw [emitted_field hfr hfl]
    rfl
  · rintro name hn
    cases hn
    simp
 | @within m inner part f parts names way hfl ht hr ih=>
  have hfr:=hf m (by simp)
  obtain ⟨args,hs,hnn,hl⟩:=ih fun x hx=>hf x (by simp [hx])
  have hm:(Json.object [f.jsonName] [args]).member f.jsonName=some args:=by
   rw [member_single,if_pos rfl]
  refine ⟨.object [f.jsonName] [args],?_,?_,?_⟩
  · exact shaped_single hfr hfl fun inner' heq=>by
     rw [ht] at heq
     exact FieldType.message.inj heq ▸ hs
  · rw [emitted_within hfr hfl ht hr.ne_nil.1,hm]
    exact hnn
  · intro name hn
    rw [foldlM_cons,property_member hm]
    apply hl name
    obtain ⟨first,rest,rfl⟩:=exists_cons_of_ne_nil hr.ne_nil.2
    simpa using hn

lemma property_inherited {name:Bytes} (h:name∈inheritedNames) :
 (JsValue.json (.object [] [])).property name=some (.prototype .object) ∨
 ∃f,(JsValue.json (.object [] [])).property name=some (.function f) := by
 have hn:(Json.object [] []).member name=none:=rfl
 simp only [JsValue.property,hn,objectFunction]
 by_cases hp : name=protoKey
 · exact .inl (by rw [if_pos hp])
 · by_cases hc : name=constructorKey
   · exact .inr ⟨text "Object",by rw [if_neg hp,if_pos hc]⟩
   · have hmethod:name∈objectMethods:=by
      simpa only [inheritedNames,mem_cons,hp,hc,false_or] using h
     exact .inr ⟨name,by rw [if_neg hp,if_neg hc,if_pos hmethod]⟩

lemma ownNames_of_unsetVariable (h:Addresses T m (fieldPath.splitOn dot) names way)
 (hne:fieldPath≠[]) (hd:∀name∈names,dot∉name) (hfl:∀x∈way,T.form x=.fields)
 (hu:UnsetVariable T m fieldPath) : OwnNames names ∧ names≠[[]] := by
 obtain ⟨args,hsh,hn,hl⟩:=exists_emptyParent h hfl
 -- The template of one variable: it must not expand.
 have hex:∀part,
   expandSegment (.json args) { field:=typescriptFieldPath T m fieldPath }≠.ok part:=by
  intro part hp
  obtain ⟨field,her⟩:=hu { template:={ segments:=[{ field:=fieldPath }] },body:=[] }
   { field:=fieldPath } args [] (by simp) rfl hsh hn
  have hs:∃result,
    expand { segments:=[{ field:=typescriptFieldPath T m fieldPath }] } (.json args)=.ok result:=by
   rw [expand,mapM_cons,hp]
   exact ⟨_,rfl⟩
  obtain ⟨result,hr⟩:=hs
  rw [resolveFields] at her
  simp only [map_cons,map_nil,hne,if_false,true_or,if_true] at her
  obtain ⟨finish,-,hb⟩:=@build_of_expand
   { template:={ segments:=[{ field:=typescriptFieldPath T m fieldPath }] },body:=[] } _ _ _
   hr []
  rw [hb] at her
  cases her
 constructor
 · intro name hnm hm
   have hfn:=(getNested_eq h hd (.json args)).trans (hl name hnm)
   have hvalue:∃x,getNested (.json args) (typescriptFieldPath T m fieldPath)=some x ∧
     x≠.json .null:=by
    rcases property_inherited hm with hpr|⟨f,hf⟩
    · exact ⟨_,hfn.trans hpr,by simp⟩
    · exact ⟨_,hfn.trans hf,by simp⟩
   obtain ⟨x,hx,hnl⟩:=hvalue
   obtain ⟨part,hp⟩:=@expandSegment_ok _ _ { field:=typescriptFieldPath T m fieldPath } hx hnl
   exact hex part hp
 · rintro rfl
   exact hex [] (by rw [expandSegment,if_pos (by rw [typescriptFieldPath_eq h];rfl)])

lemma stringify_object_ne_nil (names:List Bytes) (members:List Json) :
 stringify (.object names members)≠[] := by
 have hb:text "\x7b" ≠ []:=by decide
 rw [stringify,ne_eq,append_eq_nil_iff,append_eq_nil_iff]
 exact fun hnil=>hb hnil.1.1

lemma ownNames_of_unsetBody (h:Addresses T m (fieldPath.splitOn dot) names way) (hne:fieldPath≠[])
 (hsr:fieldPath≠text "*") (hd:∀name∈names,dot∉name)
 (hf:∀x∈way,T.form x=.fields) (hu:UnsetBody T m fieldPath) : OwnNames names ∧ names≠[text "*"] := by
 obtain ⟨args,hsh,hnn,hl⟩:=exists_emptyParent h hf
 -- The binding with the selector and no path variables: its body must be empty.
 have hs:resolveFields T m { template:={},body:=fieldPath } =
   { template:={},body:=typescriptFieldPath T m fieldPath }:=by
  rw [resolveFields,if_neg (by simp [hne,hsr])]
  rfl
 obtain ⟨hok,her⟩:=hu { template:={},body:=fieldPath } args [] rfl hsh hnn
 have hex:expand {} (.json args)=.ok ([slash],[]):=rfl
 obtain ⟨finish,hfs,hbl⟩:=@build_of_expand
  { template:={},body:=typescriptFieldPath T m fieldPath } _ _ _ hex []
 rw [hs,hbl] at hok her
 have hb:buildBody { template:={},body:=typescriptFieldPath T m fieldPath } args=.ok []:=by
  cases hb : buildBody { template:={},body:=typescriptFieldPath T m fieldPath } args with
  | error e=>
   obtain ⟨field,hfl⟩:=her e (by rw [foldl_nil,hb];rfl)
   cases hfl.symm.trans (buildBody_error hb)
  | ok body=>
   have hnil:=hok (finish body) (by rw [foldl_nil,hb];rfl)
   rw [hfs] at hnil
   rw [hnil]
 have hw:names≠[text "*"]:=by
  rintro rfl
  obtain ⟨keys,members,rfl,-,-⟩:=hsh.object_of_fields (hf m h.root_mem)
  have hpt:typescriptFieldPath T m fieldPath=text "*" := typescriptFieldPath_eq h
  rw [buildBody,hpt,if_neg (by decide),if_pos rfl] at hb
  exact stringify_object_ne_nil keys members (Except.ok.inj hb)
 refine ⟨fun name hnm hm=>?_,hw⟩
 have hn:typescriptFieldPath T m fieldPath≠[]:=by
  intro heq
  have hsn:=(intercalate_eq_iff h.ne_nil.2 (by simp)).mp ((typescriptFieldPath_eq h).symm.trans heq)
  rw [hsn] at hnm
  cases hnm
  exact absurd hm (by decide)
 have hst:typescriptFieldPath T m fieldPath≠text "*":=by
  intro heq
  exact hw ((intercalate_eq_iff h.ne_nil.2 (by decide)).mp ((typescriptFieldPath_eq h).symm.trans heq))
 have hfd:=(getNested_eq h hd (.json args)).trans (hl name hnm)
 rw [buildBody,if_neg hn,if_neg hst,hfd] at hb
 rcases property_inherited hm with hp|⟨f,hfn⟩
 · rw [hp] at hb
   exact absurd (Except.ok.inj hb) (by decide)
 · rw [hfn] at hb
   cases hb

/-- Unset fields stay unset where the last JSON name of the selector is not inherited by every
  JavaScript object. For names without dots, and messages written as their fields, this is needed as
  well; the names `` and `*` alone have their own meaning in a segment and in a body. -/
theorem unset_fields_iff (h:Addresses T m (fieldPath.splitOn dot) names way) (hne:fieldPath≠[])
  (hstar:fieldPath≠text "*") :
  ((∀name∈names,dot∉name) → (∀x,ownForm T way=some x → T.form x=.scalar) → OwnNames names →
   ReadsEmitted T m fieldPath ∧ (names≠[[]] → UnsetVariable T m fieldPath) ∧
   (names≠[text "*"] → UnsetBody T m fieldPath)) ∧
  ((∀name∈names,dot∉name) → (∀x∈way,T.form x=.fields) →
   (UnsetVariable T m fieldPath ↔ OwnNames names ∧ names≠[[]]) ∧
   (UnsetBody T m fieldPath ↔ OwnNames names ∧ names≠[text "*"])) := by
 constructor
 · intro hd ho hl
   refine ⟨fun args x hs hfn=>?_,unsetVariable_of_ownNames h hne hd ho hl,
    unsetBody_of_ownNames h hne hstar hd ho hl⟩
   rw [getNested_emitted h hd ho hl hs,Option.map_eq_some_iff] at hfn
   obtain ⟨v,hv,rfl⟩:=hfn
   exact ⟨v,hv,rfl⟩
 · intro hd hf
   have ho:∀x,ownForm T way=some x → T.form x=.scalar := by
    intro x hx
    have hsm:=find?_some hx
    simp [hf x (mem_of_find?_eq_some hx)] at hsm
   refine ⟨⟨ownNames_of_unsetVariable h hne hd hf,fun hc=>?_⟩,
    ⟨ownNames_of_unsetBody h hne hstar hd hf,fun hc=>?_⟩⟩
   · exact unsetVariable_of_ownNames h hne hd ho hc.1 hc.2
   · exact unsetBody_of_ownNames h hne hstar hd ho hc.1 hc.2
end

/-- A request with the fields `constructor` and `driver_id`. -/
def raceTypes : RequestTypes Unit where
 field _ part :=
  if part=text "constructor" then some ⟨text "constructor",.scalar⟩
  else if part=text "driver_id" then some ⟨text "driverId",.scalar⟩
  else none
 form _:=.fields
 jsonName_unique := by
  have hnames:text "constructor" ≠ text "driverId" := by decide
  intro m part part' f f' hf hf' hname
  grind

lemma raceTypes_addresses {part name:Bytes} (h:raceTypes.field () part=some ⟨name,.scalar⟩) :
 Addresses raceTypes () [part] [name] [()] :=
 @Addresses.field _ raceTypes () part ⟨name,.scalar⟩ h

/-- The unset field `constructor` is found on `Object.prototype`: its text gets into the path, and as
  a body it has no JSON text at all. -/
theorem constructor_not_unset :
  Addresses raceTypes () ((text "constructor").splitOn dot) [text "constructor"] [()] ∧
  Shaped raceTypes () (.object [] []) ∧
  emitted raceTypes () ((text "constructor").splitOn dot) (.object [] [])=none ∧
  build (resolveFields raceTypes ()
    { template:={ segments:=[{ field:=text "constructor" }] },body:=[] })
   (.object [] []) (text "http://h")=.ok {
    body:=[]
    location:=text "http://h/function%20Object()%20%7B%20%5Bnative%20code%5D%20%7D"
    params:=[] } ∧
  build (resolveFields raceTypes () { template:={},body:=text "constructor" }) (.object [] [])
   (text "http://h")=.error .typeError := by
 have hp:(text "constructor").splitOn dot=[text "constructor"] := by decide
 refine ⟨hp ▸ raceTypes_addresses rfl,?_,rfl,?_,rfl⟩
 · exact .inr ⟨rfl,nodup_nil,trivial⟩
 · decide

theorem driver_unset : UnsetVariable raceTypes () (text "driver_id") ∧
  UnsetBody raceTypes () (text "driver_id") :=
 have hp:(text "driver_id").splitOn dot=[text "driver_id"] := by decide
 have ha:Addresses raceTypes () ((text "driver_id").splitOn dot) [text "driverId"] [()] :=
  hp ▸ raceTypes_addresses rfl
 have ho:OwnNames [text "driverId"] := by
  intro name hn
  cases hn
  decide
 have hc:=(unset_fields_iff ha (by decide) (by decide)).2 (by decide) (fun _ _=>rfl)
 ⟨hc.1.mpr ⟨ho,by decide⟩,hc.2.mpr ⟨ho,by decide⟩⟩
end InvariantProtocol.TypeScriptClient
