import InvariantProtocol.RendererRules
/-! `data/iceberg`: the Iceberg schema of a dataset. -/
namespace InvariantProtocol.IcebergSchema
open GoResult DataSchema DataMapping CompilerState RendererRules
open ClickHouseSchema (joinPath jsonKindText)

/-- Iceberg reserves the highest 200 signed 32-bit IDs. -/
def maxFieldID : ℤ:=2^31-1-200

inductive Default where
 | absent
 | number (value:ℤ)
 | text (value:String)
 | truth (value:Bool)
 | emptyList
 | emptyMap

mutual

inductive IcebergType where
 | boolean | int | long | float | double | string | binary | uuid | timestampTzNs
 | decimal (precision scale:ℕ)
 | fixed (length:ℕ)
 | struct (fields:List NestedField)
 | list (elementID:ℤ) (element:IcebergType) (elementRequired:Bool)
 | map (keyID:ℤ) (key:IcebergType) (valueID:ℤ) (value:IcebergType) (valueRequired:Bool)

inductive NestedField where
 | mk (id:ℤ) (name:String) (required:Bool) (doc:String) (type:IcebergType)
   (initialDefault writeDefault:Default)
end

def NestedField.id : NestedField → ℤ
 | .mk id _ _ _ _ _ _=>id

def NestedField.type : NestedField → IcebergType
 | .mk _ _ _ _ type _ _=>type

def NestedField.required : NestedField → Bool
 | .mk _ _ required _ _ _ _=>required

structure MappedType where
 type : IcebergType
 children : List MappingDiagnostic:=[]
 compatibility : MappingCompatibility
 message : Text

def mapPrimitive : PrimitiveKind → Result MappedType
 | .double=>
  .ok ⟨.double,[],.lossless,plain "protobuf double maps losslessly to Iceberg double"⟩
 | .float=>.ok ⟨.float,[],.lossless,plain "protobuf float maps losslessly to Iceberg float"⟩
 | .int64 | .sfixed64 | .sint64=>.ok ⟨.long,[],.lossless,
   plain "protobuf signed 64-bit integer maps losslessly to Iceberg long"⟩
 | .uint64 | .fixed64=>.ok ⟨.decimal 20 0,[],.rangeWidened,plain ("protobuf unsigned 64-bit " ++
   "integer maps to Iceberg decimal(20, 0), which contains its full domain")⟩
 | .int32 | .sfixed32 | .sint32=>.ok ⟨.int,[],.lossless,
   plain "protobuf signed 32-bit integer maps losslessly to Iceberg int"⟩
 | .fixed32 | .uint32=>.ok ⟨.long,[],.rangeWidened,
   plain "protobuf unsigned 32-bit integer widens to Iceberg long"⟩
 | .bool=>.ok ⟨.boolean,[],.lossless,plain "protobuf bool maps losslessly to Iceberg boolean"⟩
 | .string=>
  .ok ⟨.string,[],.lossless,plain "protobuf string maps losslessly to Iceberg string"⟩
 | .bytes=>
  .ok ⟨.binary,[],.lossless,plain "protobuf bytes maps losslessly to Iceberg binary"⟩
 | kind=>.error (unsupportedPrimitive kind)

def implicitPrimitive (kind:PrimitiveKind) (path:String) : Result Default :=
 match kind with
 | .double | .float | .int64 | .int32 | .fixed32 | .uint32 | .sfixed32 | .sfixed64 | .sint32
 | .sint64=>.ok (.number 0)
 | .uint64 | .fixed64=>.ok (.text "0")
 | .bool=>.ok (.truth false)
 | .string | .bytes=>.ok (.text "")
 | kind=>.error (.errorf "iceberg: implicit protobuf field %q has unsupported primitive kind %s"
   [.str path,.str (unmappedKindText kind)])

def implicitDefault (t:DataType) (path:String) : Result Default :=
 match t with
 | .primitive _ kind=>implicitPrimitive kind path
 | .enum _ enum=>match enum.values with
  | []=>.error (.errorf "iceberg: implicit protobuf enum field %q has no declared values"
    [.str path])
  | value::_=>.ok (.number value.number)
 | .decimal _ _ _ | .uuid _ | .fixedBytes _ _=>
  .error (.errorf ("iceberg: implicit protobuf field %q has a refined logical type without a " ++
   "valid implicit value; use explicit presence") [.str path])
 | .nil=>.error (.errorf "iceberg: implicit protobuf field %q has no logical type" [.str path])
 | _=>.error (.errorf "iceberg: implicit protobuf field %q is not a scalar or enum" [.str path])

def fieldDefaults (a:FieldAttributes) (t:DataType) (path:String) :
  Result (Default×Default) :=
 match a.presence with
 | .implicit=>do
  rejectIf (a.nullable=true)
   (.errorf "iceberg: implicit protobuf field %q cannot be nullable" [.str path])
  let value ← implicitDefault t path
  return (value,value)
 | .repeated=>do
  let fixedLength:=match t with
   | .list _ _ n=>some n
   | _=>none
  rejectIf (a.nullable=true ∨ fixedLength=none)
   (.errorf "iceberg: repeated protobuf field %q must be a non-null list" [.str path])
  if fixedLength=some 0 then return (.emptyList,.emptyList)
  else return (.absent,.absent)
 | .map=>do
  let isMap:=match t with
   | .map _ _ _=>true
   | _=>false
  rejectIf (a.nullable=true ∨ isMap=false)
   (.errorf "iceberg: protobuf map field %q must be a non-null map" [.str path])
  return (.emptyMap,.emptyMap)
 | .required=>.error (.errorf ("iceberg: required protobuf field %q has no safe canonical value " ++
   "for historical rows; use an implicit scalar/enum, repeated/map, or presence-bearing " ++
   "optional field") [.str path])
 | .explicit | .oneof=>do
  rejectIf (a.nullable=false)
   (.errorf "iceberg: presence-bearing protobuf field %q must be nullable" [.str path])
  return (.absent,.absent)
 | .notApplicable=>do
  rejectIf (a.syntheticRole=.protoField)
   (.errorf "iceberg: protobuf field %q has no presence semantics" [.str path])
  return (.absent,.absent)
 | _=>.error (.errorf "iceberg: field %q has unspecified protobuf presence" [.str path])

def mapEnumType (enum:EnumType) : MappedType :=
 if enum.closed then ⟨.int,[],.rangeWidened,plain ("closed protobuf enum numbers map to " ++
  "unconstrained Iceberg int; the column admits undeclared values")⟩
 else ⟨.int,[],.lossless,plain "open protobuf enum numbers map losslessly to Iceberg int"⟩

def mapListType (fixedLength:ℕ) (mapped:NestedField) (diagnostics:List MappingDiagnostic) :
  MappedType :=
 let type:=.list mapped.id mapped.type mapped.required
 if fixedLength≠0 then ⟨type,diagnostics,.rangeWidened,[.errorf ("Iceberg has no " ++
  "fixed-cardinality list: length %d widens to an optional unconstrained list with no default; " ++
  "publishers must validate every value against SchemaBundle") [.int fixedLength]]⟩
 else ⟨type,diagnostics,.lossless,
  plain "protobuf repeated field maps to an Iceberg list with a distinct element ID"⟩

def mapTimestampType (unit:TimeUnit) (timezone path:String) : Mapping MappedType:=do
 rejectWhen (unit≠.nanosecond ∨ timezone≠"UTC")
  (failing (.errorf "iceberg: field %q has unsupported timestamp unit or timezone" [.str path]))
 return ⟨.timestampTzNs,[],.rangeReduced,plain ("Iceberg timestamptz_ns preserves UTC " ++
  "nanoseconds but its int64 range is narrower than protobuf Timestamp; it requires Iceberg " ++
  "format v3")⟩

def mapDurationType (unit:TimeUnit) (path:String) : Mapping MappedType:=do
 rejectWhen (unit≠.nanosecond)
  (failing (.errorf "iceberg: field %q has unsupported duration unit" [.str path]))
 return ⟨.long,[],.rangeReduced,plain ("Iceberg has no duration type; exact nanoseconds use " ++
  "long, whose int64 range is narrower than protobuf Duration")⟩

def mapJsonType (kind:JsonKind) : MappedType :=
 ⟨.string,[],.rangeReduced,[.errorf ("protobuf %s is encoded as RFC 8259 JSON text in an " ++
  "Iceberg string; %s") [.str (jsonKindText kind),.str (jsonRangeReduction kind)]]⟩

def mapDecimalType (precision scale:ℕ) (path:String) : Mapping MappedType:=do
 let (precision,scale) ← refuse
  (fun err=>failing (.wrapf "iceberg: field %q: %w" [.str path] err))
  (decimalParameters precision scale)
 return ⟨.decimal precision scale,[],.representationChanged,[.errorf ("canonical decimal text " ++
  "is decoded into Iceberg decimal(%d, %d); precision and scale are preserved but the physical " ++
  "representation changes") [.int precision,.int scale]]⟩

def mapUuidType : MappedType :=
 ⟨.uuid,[],.representationChanged,plain "canonical UUID text is decoded into Iceberg uuid"⟩

def mapFixedBytesType (byteLength:ℕ) (path:String) : Mapping MappedType:=do
 let width ← refuse (fun err=>failing (.wrapf "iceberg: field %q: %w" [.str path] err))
  (fixedByteWidth "fixed byte length %d exceeds Iceberg's maximum of %d" byteLength)
 return ⟨.fixed width,[],.lossless,[.errorf ("exact-width protobuf bytes map losslessly to " ++
  "Iceberg fixed[%d]") [.int width]]⟩

def fieldDiagnostic (a:FieldAttributes) (path:String) (mapped:MappedType) :
  MappingDiagnostic :=
 noteOneof "; Iceberg does not enforce mutual exclusivity for oneof %q" a.oneof
  ⟨path,mapped.compatibility,mapped.message⟩

/-- A list of fixed length has no default for historical rows, so its column is optional. -/
def isRequired (a:FieldAttributes) : DataType → Bool
 | .list _ _ fixedLength=>!a.nullable && fixedLength=0
 | _=>!a.nullable

mutual

def mapField : Field → String → Mapping (NestedField×List MappingDiagnostic)
 | .nil,path=>.error (failing (.errorf "iceberg: field %q has no logical type" [.str path]))
 | .mk _ .nil,path=>
  .error (failing (.errorf "iceberg: field %q has no logical type" [.str path]))
 | .mk a t,path=>do
  let mapped ← mapType t path
  let (initialDefault,writeDefault) ← refuse (fun err=>⟨mapped.children,err⟩)
   (fieldDefaults a t path)
  return (.mk a.stableId a.name (isRequired a t) a.description mapped.type initialDefault
    writeDefault,
   fieldDiagnostic a path mapped::mapped.children)

def mapType : DataType → String → Mapping MappedType
 | .primitive _ kind,path=>
  refuse (fun err=>failing (.wrapf "iceberg: field %q: %w" [.str path] err)) (mapPrimitive kind)
 | .enum _ enum,_=>.ok (mapEnumType enum)
 | .struct _ fields,path=>do
  let (mapped,diagnostics) ← mapFields path [] [] fields
  return ⟨.struct mapped,diagnostics,.lossless,
   plain "protobuf message maps to an Iceberg struct"⟩
 | .list _ element fixedLength,path=>do
  let (mapped,diagnostics) ← mapField element (path++"[]")
  return mapListType fixedLength mapped diagnostics
 | .map _ key value,path=>do
  let (key,keyDiagnostics) ← mapField key (path++".key")
  let (value,valueDiagnostics) ← precededBy keyDiagnostics (mapField value (path++".value"))
  return ⟨.map key.id key.type value.id value.type value.required,
   keyDiagnostics++valueDiagnostics,.lossless,
   plain "protobuf map maps to an Iceberg map with distinct key and value IDs"⟩
 | .timestamp _ unit timezone,path=>mapTimestampType unit timezone path
 | .duration _ unit,path=>mapDurationType unit path
 | .json _ kind,_=>.ok (mapJsonType kind)
 | .decimal _ precision scale,path=>mapDecimalType precision scale path
 | .uuid _,_=>.ok mapUuidType
 | .fixedBytes _ byteLength,path=>mapFixedBytesType byteLength path
 | .nil,path=>
  .error (failing (.errorf "iceberg: field %q has an unspecified logical type" [.str path]))
 | .unset _,path=>
  .error (failing (.errorf "iceberg: field %q has an unspecified logical type" [.str path]))

def mapFields (path:String) (fields:List NestedField) (diagnostics:List MappingDiagnostic) :
  List Field → Mapping (List NestedField×List MappingDiagnostic)
 | []=>.ok (fields,diagnostics)
 | child::rest=>do
  let (mapped,childDiagnostics) ← havingCollected diagnostics
   (mapField child (joinPath path child.attributes.name))
  mapFields path (fields++[mapped]) (diagnostics++childDiagnostics) rest
end

def claimFieldID (seen:GoMap ℤ String) (id:ℤ) (path:String) : Result (GoMap ℤ String):=do
 rejectIf (id≤0 ∨ id > maxFieldID)
  (.errorf "iceberg: field %q has invalid stable ID %d; IDs must be between 1 and %d"
   [.str path,.int id,.int maxFieldID])
 rejectIf (id∈seen)
  (.errorf "iceberg: stable ID %d is shared by %q and %q"
   [.int id,.str ((seen.lookup id).getD ""),.str path])
 return seen.insert id path

mutual

def visitField (seen:GoMap ℤ String) (path:String) : Field → Result (GoMap ℤ String)
 | .nil=>.error (.errorf "iceberg: nil field at %q" [.str path])
 | .mk a t=>do
  let seen ← claimFieldID seen a.stableId path
  visitType seen path t

def visitType (seen:GoMap ℤ String) (path:String) : DataType → Result (GoMap ℤ String)
 | .nil=>.error (.errorf "iceberg: field %q has no logical type" [.str path])
 | .struct _ fields=>visitFields seen path fields
 | .list _ element _=>visitField seen (path++"[]") element
 | .map _ key value=>do
  let seen ← visitField seen (path++".key") key
  visitField seen (path++".value") value
 | _=>.ok seen

def visitFields (seen:GoMap ℤ String) (path:String) : List Field → Result (GoMap ℤ String)
 | []=>.ok seen
 | child::rest=>do
  let seen ← visitField seen (joinPath path child.attributes.name) child
  visitFields seen path rest
end

def validateFieldIDs (dataset:DatasetSchema) : Result Unit:=do
 let seen ← visitFields ∅ "" dataset.fields
 let _ ← loop (fun seen retired=>claimFieldID seen retired.stableId
  ("retired "++retired.identity)) seen dataset.retiredFields
 return ()

def schema (dataset:DatasetSchema) : Mapping (List NestedField×List MappingDiagnostic):=do
 refuse failing (validateFieldIDs dataset)
 mapFields "" [] [] dataset.fields
end InvariantProtocol.IcebergSchema
