import InvariantProtocol.ClickHouseText
namespace InvariantProtocol.StoredShape
open GoResult GoText DataSchema ClickHouseSchema SqlType ClickHouseChecks ClickHouseText
open LogicalRow

def primitiveColumn : PrimitiveKind → BaseType
 | .double=>.float64
 | .float=>.float32
 | .int64 | .sfixed64 | .sint64=>.int64
 | .uint64 | .fixed64=>.uint64
 | .int32 | .sfixed32 | .sint32=>.int32
 | .fixed32 | .uint32=>.uint32
 | .bool=>.bool
 | .string | .bytes | .unspecified | .unrecognized _=>.string

def presenceTuple (c:ColumnType) : ColumnType:=.tuple ["present","value"] [.base .bool,c]

def presenceColumn (a:FieldAttributes) (t:DataType) (c:ColumnType) : ColumnType :=
 match a.presence with
 | .explicit=>if isComposite t then presenceTuple c else .nullable c
 | .required | .oneof=>presenceTuple c
 | _=>c

def presenceChecks (a:FieldAttributes) (t:DataType) (cs:List Check) : List Check :=
 match a.presence with
 | .explicit=>if isComposite t then cs.map .ifPresent else cs.map .ifNotNull
 | .required=>.element "present" .isTrue::cs.map .ifPresent
 | .oneof=>cs.map .ifPresent
 | _=>cs

def opens (seen:List String) (field:Field) : Prop :=
 field.attributes.oneof≠"" ∧ field.attributes.oneof∉seen

instance (seen:List String) (field:Field) : Decidable (opens seen field) :=
 inferInstanceAs (Decidable (_ ∧ _))

def memberNumbers (oneof:String) (fields:List Field) : List UInt32 :=
 (fields.filter fun f=>f.attributes.oneof=oneof).map lastNumber

/-- The values of a discriminator: the member numbers, and 0 for none. -/
def caseNumbers (numbers:List UInt32) : List ℤ :=
 0::(numbers.insertionSort (· ≤ ·)).map fun number=>(number.toNat : ℤ)

/-- What a scope holds for each field, and for each oneof in front of its first member. -/
def scopeEntries {β:Type} (caseEntry:β) : List String → List (Field×β) → List (String×β)
 | _,[]=>[]
 | seen,(field,entry)::rest=>
  (if opens seen field then [(oneofCaseName field.attributes.oneof,caseEntry)] else []) ++
   (field.attributes.name,entry)::scopeEntries caseEntry (field.attributes.oneof::seen) rest

def structEntries {β:Type} (unitEntry caseEntry:β) (fields:List Field) (entries:List β) :
  List (String×β) :=
 if fields.isEmpty then [(unitName,unitEntry)]
 else scopeEntries caseEntry [] (fields.zip entries)

def caseCheck (field:Field) (fields:List Field) : Check :=
 .element (oneofCaseName field.attributes.oneof)
  (.oneOf (caseNumbers (memberNumbers field.attributes.oneof fields)))

def selectedCheck (field:Field) : Check :=
 .selected (oneofCaseName field.attributes.oneof) (lastNumber field).toNat field.attributes.name

def memberChecks (field:Field) : List Check :=
 if field.attributes.oneof = "" then [] else [selectedCheck field]

def scopeChecks : List String → List (Field×List Check) → List Check
 | _,[]=>[]
 | seen,(field,cs)::rest=>
  (if opens seen field then [caseCheck field (field::rest.map Prod.fst)] else []) ++
   memberChecks field++cs.map (.element field.attributes.name) ++
   scopeChecks (field.attributes.oneof::seen) rest

def structColumns (fields:List Field) (columns:List ColumnType) : List (String×ColumnType) :=
 structEntries (.base .bool) (.base .int32) fields columns

def structChecks (fields:List Field) (checks:List (List Check)) : List Check :=
 if fields.isEmpty then [.element unitName .isFalse] else scopeChecks [] (fields.zip checks)

def tupleOf (columns:List (String×ColumnType)) : ColumnType :=
 .tuple (columns.map Prod.fst) (columns.map Prod.snd)

mutual

def fieldColumn : Field → ColumnType
 | .nil=>.base .bool
 | .mk a t=>presenceColumn a t (typeColumn t)

def typeColumn : DataType → ColumnType
 | .primitive _ kind=>.base (primitiveColumn kind)
 | .enum _ _=>.base .int32
 | .struct _ fields=>tupleOf (structColumns fields (fieldColumns fields))
 | .list _ element _=>.array (fieldColumn element)
 | .map _ key value=>.map (fieldColumn key) (fieldColumn value)
 | .timestamp _ _ _=>.dateTime64 9 "UTC"
 | .duration _ _=>.base .int64
 | .json _ _=>.base .string
 | .decimal _ precision scale=>.decimal precision scale
 | .uuid _=>.base .uuid
 | .fixedBytes _ byteLength=>.fixedString byteLength
 | .nil=>.base .bool
 | .unset _=>.base .bool

def fieldColumns : List Field → List ColumnType
 | []=>[]
 | field::rest=>fieldColumn field::fieldColumns rest
end

/-- The DEFAULT expression of a column; an empty one leaves the default to its type. -/
def presenceDefault (a:FieldAttributes) (t:DataType) : String :=
 match a.presence,t with
 | .implicit,t=>implicitDefault t
 | .explicit,t=>if isComposite t then "" else "NULL"
 | .repeated,.list _ _ n=>if n=0 then "[]" else ""
 | .map,_=>"map()"
 | _,_=>""

def fieldDefault : Field → String
 | .nil=>""
 | .mk a t=>presenceDefault a t

def enumNumbers (values:List EnumValue) : List ℤ:=(declaredNumbers values).insertionSort (· ≤ ·)

mutual

def fieldChecks : Field → List Check
 | .nil=>[]
 | .mk a t=>presenceChecks a t (typeChecks t)

def typeChecks : DataType → List Check
 | .primitive _ kind=>if kind=.string then [.utf8] else []
 | .enum _ enum=>if enum.closed then [.oneOf (enumNumbers enum.values)] else []
 | .struct _ fields=>structChecks fields (allChecks fields)
 | .list _ element n=>
  (if n≠0 then [.hasLength n] else [])++(fieldChecks element).map .allElements
 | .map _ key value=>
  .distinctKeys::((fieldChecks key).map .allKeys++(fieldChecks value).map .allValues)
 | .json _ _=>[.json]
 | _=>[]

def allChecks : List Field → List (List Check)
 | []=>[]
 | field::rest=>fieldChecks field::allChecks rest
end

lemma fieldColumns_eq (fields:List Field) : fieldColumns fields=fields.map fieldColumn := by
 induction fields with
 | nil=>rfl
 | cons field rest ih=>rw [fieldColumns,ih,List.map_cons]

section
variable {β γ:Type}
lemma scopeEntries_map (g:β → γ) (caseEntry:β) (seen:List String) (ps:List (Field×β)) :
 (scopeEntries caseEntry seen ps).map (Prod.map id g) =
  scopeEntries (g caseEntry) seen (ps.map (Prod.map id g)) := by
 induction ps generalizing seen with
 | nil=>rfl
 | cons p ps ih=>
  obtain ⟨field,entry⟩:=p
  by_cases ho : opens seen field <;> simp [scopeEntries,ho,ih]

lemma structEntries_map (g:β → γ) (unitEntry caseEntry:β) (fields:List Field) (entry:Field → β) :
 (structEntries unitEntry caseEntry fields (fields.map entry)).map (Prod.map id g) =
  structEntries (g unitEntry) (g caseEntry) fields (fields.map fun f=>g (entry f)) := by
 unfold structEntries
 split
 · rfl
 · rw [scopeEntries_map,←List.zip_map_right,List.map_map]
   rfl
end

lemma allChecks_eq (fields:List Field) : allChecks fields=fields.map fieldChecks := by
 induction fields with
 | nil=>rfl
 | cons field rest ih=>rw [allChecks,ih,List.map_cons]

structure ScopeOk (fields:List Field) : Prop where
 nulFree : ∀f∈fields,NulFree f.attributes.name
 unreserved : ∀f∈fields,startsWith reservedNamePrefix f.attributes.name=false
 nodup : (fields.map fun f=>f.attributes.name).Nodup
 single : ∀f∈fields,f.attributes.oneof = "" → f.attributes.presence≠.oneof
 member : ∀f∈fields,f.attributes.oneof≠"" →
  f.attributes.presence=.oneof ∧ lastNumber f≠0 ∧ NulFree (oneofCaseName f.attributes.oneof)
 numbers : fields.Pairwise fun f g=>f.attributes.oneof≠"" →
  f.attributes.oneof=g.attributes.oneof → lastNumber f≠lastNumber g

def PresenceOk (a:FieldAttributes) (t:DataType) : Prop :=
 match a.presence with
 | .implicit=>implicitCapable t=true
 | .oneof=>a.oneof≠""
 | .repeated=>∃p element n,t=.list p element n
 | .map=>∃p key value,t=.map p key value
 | .explicit | .required | .notApplicable=>True
 | _=>False

mutual

def MappableField : Field → Prop
 | .nil=>False
 | .mk a t=>PresenceOk a t ∧ MappableType t

def MappableType : DataType → Prop
 | .primitive _ kind=>kind≠.unspecified ∧ ∀number,kind≠.unrecognized number
 | .enum _ enum=>enum.values≠[]
 | .struct _ fields=>ScopeOk fields ∧ MappableFields fields
 | .list _ element _=>MappableField element
 | .map _ key value=>MappableField key ∧ MappableField value
 | .nil=>False
 | .unset _=>False
 | _=>True

def MappableFields : List Field → Prop
 | []=>True
 | field::rest=>MappableField field ∧ MappableFields rest
end

lemma mappableFields_iff {fields:List Field} : MappableFields fields ↔ ∀f∈fields,MappableField f := by
 induction fields with
 | nil=>simp [MappableFields]
 | cons field rest ih=>simp [MappableFields,ih]
end InvariantProtocol.StoredShape
