import InvariantProtocol.IcebergSchema
/-! `data/clickhouse/projection.go`: the plan by which a publisher reads the values of a ClickHouse
table into the Iceberg schema of the same dataset. -/
namespace InvariantProtocol.IcebergProjection
open GoResult DataSchema DataMapping
open ClickHouseSchema (joinPath oneofCaseName tupleElementExpression isNilType)
open IcebergSchema (IcebergType NestedField)

def projectionVersion : ℕ:=2

def projectionValuePlaceholder : String := "\x7bvalue\x7d"

structure NodeProjection where
 fieldPath : String
 name : String
 stableID : ℤ
 clickHouseType : String
 icebergType : String
 presenceExpression : String
 valueExpression : String
 fixedLength : ℕ
 discriminator : String
 protobufFieldNumber : UInt32

/-- `IcebergFieldProjection`: a node of the plan and the nodes below it. -/
inductive FieldProjection where
 | mk (node:NodeProjection) (children:List FieldProjection)

def FieldProjection.node : FieldProjection → NodeProjection
 | .mk node _=>node

structure Projection where
 version : ℕ
 dataset : String
 sourceMessage : String
 fields : List FieldProjection

mutual

/-- The fields of a schema by ID, with the elements of lists and the keys and values of maps. -/
def fieldIndex : NestedField → List (ℤ×IcebergType)
 | .mk id _ _ _ type _ _=>(id,type)::typeIndex type

def typeIndex : IcebergType → List (ℤ×IcebergType)
 | .struct fields=>fieldsIndex fields
 | .list elementID element _=>(elementID,element)::typeIndex element
 | .map keyID key valueID value _=>
  (keyID,key)::typeIndex key++(valueID,value)::typeIndex value
 | _=>[]

def fieldsIndex : List NestedField → List (ℤ×IcebergType)
 | []=>[]
 | field::rest=>fieldIndex field++fieldsIndex rest
end

def conversionExpression (t:DataType) (value:String) : String :=
 match t with
 | .primitive _ .uint64 | .primitive _ .fixed64=>
  "accurateCast("++value++", 'Decimal(20, 0)')"
 | .primitive _ .uint32 | .primitive _ .fixed32=>"toInt64("++value++")"
 | .timestamp _ _ _=>"toUnixTimestamp64Nano("++value++")"
 | _=>value

structure PresencePlan where
 presence : String := "true"
 value : String:=projectionValuePlaceholder
 discriminator : String := ""
 fieldNumber : UInt32:=0

def tuplePlan : PresencePlan where
 presence:=tupleElementExpression projectionValuePlaceholder "present"
 value:=tupleElementExpression projectionValuePlaceholder "value"

def presencePlan (a:FieldAttributes) (path:String) (composite:Bool) : Result PresencePlan :=
 match a.presence with
 | .explicit=>
  .ok (if composite then tuplePlan
   else
    { presence := "isNotNull("++projectionValuePlaceholder++")"
      value := "assumeNotNull("++projectionValuePlaceholder++")" })
 | .required=>.ok tuplePlan
 | .oneof=>
  match a.protoNumberPath.getLast? with
  | none=>.error (.errorf "clickhouse: projection oneof field %q has no protobuf field number"
    [.str path])
  | some fieldNumber=>.ok
    { tuplePlan with
      presence:=tuplePlan.presence++" AND \x7bcase\x7d = "++toString fieldNumber.toNat
      discriminator:=oneofCaseName a.oneof
      fieldNumber:=fieldNumber }
 | .implicit | .repeated | .map | .notApplicable=>.ok {}
 | presence=>.error (.errorf "clickhouse: projection field %q has unsupported presence %s"
   [.str path,.str (DataCompiler.Presence.text presence)])

def fixedLength : DataType → ℕ
 | .list _ _ n=>n
 | _=>0

def projectedNode (a:FieldAttributes) (t:DataType) (path clickHouseType icebergType:String)
  (plan:PresencePlan) : NodeProjection where
 fieldPath:=path
 name:=a.name
 stableID:=a.stableId
 clickHouseType:=clickHouseType
 icebergType:=icebergType
 presenceExpression:=plan.presence
 valueExpression:=conversionExpression t plan.value
 fixedLength:=fixedLength t
 discriminator:=plan.discriminator
 protobufFieldNumber:=plan.fieldNumber

section

-- The name an Iceberg type gives itself, and the fields of the target schema by ID.
variable (typeText:IcebergType → String) (finder:ℤ → Option IcebergType)
def targetType (id:ℤ) (path:String) : Result String :=
 match finder id with
 | none=>.error (.errorf "clickhouse: Iceberg target is missing stable_id %d for field %q"
   [.int id,.str path])
 | some type=>.ok (typeText type)

def childType (path:String) (child:Field) (childPath:String) : Result String:=do
 rejectIf (child.isNil=true)
  (.errorf "clickhouse: projection field %q contains a nil child" [.str path])
 targetType typeText finder child.attributes.stableId childPath

mutual

def projectField : Field → String → String → Result FieldProjection
 | .nil,path,_=>
  .error (.errorf "clickhouse: projection field %q has no logical type" [.str path])
 | .mk a t,path,icebergType=>do
  rejectIf (isNilType t=true)
   (.errorf "clickhouse: projection field %q has no logical type" [.str path])
  let (physical,_) ← (ClickHouseSchema.mapField (.mk a t) path).mapError Rejection.error
  let mapped ← (ClickHouseSchema.mapType t path).mapError fun r=>
   .wrapf "clickhouse: projection field %q: %w" [.str path] r.error
  let plan ← presencePlan a path mapped.composite
  let children ← projectChildren t path
  return .mk (projectedNode a t path physical.sqlType icebergType plan) children

def projectChildren : DataType → String → Result (List FieldProjection)
 | .struct _ fields,path=>projectMembers path fields
 | .list _ element _,path=>do
  let elementType ← childType typeText finder path element (path++"[]")
  let element ← projectField element (path++"[]") elementType
  return [element]
 | .map _ key value,path=>do
  let keyType ← childType typeText finder path key (path++".key")
  let key ← projectField key (path++".key") keyType
  let valueType ← childType typeText finder path value (path++".value")
  let value ← projectField value (path++".value") valueType
  return [key,value]
 | _,_=>.ok []

def projectMembers (path:String) : List Field → Result (List FieldProjection)
 | []=>.ok []
 | child::rest=>do
  let childPath:=joinPath path child.attributes.name
  let memberType ← childType typeText finder path child childPath
  let projected ← projectField child childPath memberType
  let children ← projectMembers path rest
  return projected::children
end

def projectColumn (field:Field) : Result FieldProjection:=do
 let columnType ← targetType typeText finder field.attributes.stableId field.attributes.name
 projectField typeText finder field field.attributes.name columnType
end

/-- `findFieldByID` is the method of the Iceberg library's schema. -/
def projectToIceberg (typeText:IcebergType → String)
  (findFieldByID:List NestedField → ℤ → Option IcebergType) (dataset:DatasetSchema) :
  Mapping (Projection×List MappingDiagnostic):=do
 let (_,clickhouseDiagnostics) ← (ClickHouseSchema.schema dataset).mapError fun r=>
  ⟨r.diagnostics,
   .wrapf "clickhouse: build native schema before Iceberg projection: %w" [] r.error⟩
 let (icebergSchema,icebergDiagnostics) ← (IcebergSchema.schema dataset).mapError fun r=>
  ⟨clickhouseDiagnostics++r.diagnostics,
   .wrapf "clickhouse: build Iceberg target schema: %w" [] r.error⟩
 let diagnostics:=clickhouseDiagnostics++icebergDiagnostics
 let fields ← refuse (Rejection.mk diagnostics)
  (dataset.fields.mapM (projectColumn typeText (findFieldByID icebergSchema)))
 return (⟨projectionVersion,dataset.name,dataset.sourceMessage,fields⟩,diagnostics)
end InvariantProtocol.IcebergProjection
