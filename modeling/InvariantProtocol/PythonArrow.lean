import InvariantProtocol.ArrowSchema
/-! `data_arrow.py`: `arrow_schema`. Formatting calls are written with Go's verbs, and `%r` for
`repr`. A release of PyArrow may lack the UUID type. -/
namespace InvariantProtocol.PythonArrow
open GoResult GoText DataSchema DataMapping DataCompiler RendererRules EnumMetadata ArrowSchema
open ClickHouseSchema (jsonKindText)

def joinPath (parent child:String) : String :=
 if parent≠"" then parent++"."++child else child

/-- `Presence.Name`, which knows the declared numbers only. -/
def presenceName : Presence → Result String
 | .unrecognized number=>.error (.errorf
   "Enum invariant.data.v1.Presence has no name defined for value %d" [.int number])
 | presence=>.ok (Presence.text presence)

def jsonKindName : JsonKind → Result String
 | .unrecognized number=>.error (.errorf
   "Enum invariant.data.v1.JsonKind has no name defined for value %d" [.int number])
 | kind=>.ok (jsonKindText kind)

def compactMetadata (values:Metadata) : Metadata:=ArrowSchema.compactMetadata values

def logicalTypeName : DataType → String
 | .list _ _ fixedLength=>if fixedLength≠0 then "fixed_list" else "list"
 | t=>ArrowSchema.logicalTypeName t

def mapPrimitive : PrimitiveKind → Result ArrowType
 | .double=>.ok .float64
 | .float=>.ok .float32
 | .int64 | .sfixed64 | .sint64=>.ok .int64
 | .uint64 | .fixed64=>.ok .uint64
 | .int32 | .sfixed32 | .sint32=>.ok .int32
 | .uint32 | .fixed32=>.ok .uint32
 | .bool=>.ok .boolean
 | .string=>.ok .utf8
 | .bytes=>.ok .binary
 | .unrecognized number=>.error (.errorf
   "Enum invariant.data.v1.PrimitiveKind has no name defined for value %d" [.int number])
 | .unspecified=>
  .error (.errorf "arrow: unsupported primitive kind PRIMITIVE_KIND_UNSPECIFIED" [])

/-- The names PyArrow prints for the types of primitives. -/
def typeText : ArrowType → String
 | .float64=>"double"
 | .float32=>"float"
 | .utf8=>"string"
 | t=>ArrowSchema.typeText t

def mapPrimitiveType (kind:PrimitiveKind) : Result MappedType:=do
 let mapped ← mapPrimitive kind
 return ⟨mapped,[],.lossless,[.errorf "protobuf %s maps losslessly to Arrow %s"
  [.str (primitiveName kind),.str (typeText mapped)]]⟩

def mapEnumType (enum:EnumType) : MappedType:=ArrowSchema.mapEnumType enum

def mapListType (fixedLength:ℕ) (path:String) (element:ArrowField)
  (diagnostics:List MappingDiagnostic) : Result MappedType :=
 let element:=element.withName "item"
 if fixedLength≠0 then do
  rejectIf (fixedLength > maxInt32)
   (.errorf "arrow: fixed-list field %r length must be between 1 and %d elements"
    [.str path,.int maxInt32])
  return ⟨.fixedSizeList fixedLength element,diagnostics,.lossless,
   [.errorf ("fixed-cardinality protobuf repeated field maps losslessly to Arrow " ++
    "fixed_size_list[%d]") [.int fixedLength]]⟩
 else .ok (lossless (.list element) diagnostics "protobuf repeated field maps to an Arrow list")

def mapTimestampType (unit:TimeUnit) (timezone path:String) : Result MappedType:=do
 rejectIf (unit≠.nanosecond ∨ timezone≠"UTC")
  (.errorf "arrow: field %r has unsupported timestamp unit or timezone" [.str path])
 return ⟨.timestamp "UTC",[],.rangeReduced,plain ("Arrow timestamp[ns, tz=UTC] preserves " ++
  "nanosecond precision but its int64 range is narrower than protobuf Timestamp")⟩

def mapDurationType (unit:TimeUnit) (path:String) : Result MappedType:=do
 rejectIf (unit≠.nanosecond)
  (.errorf "arrow: field %r has unsupported duration unit" [.str path])
 return ⟨.duration,[],.rangeReduced,plain ("Arrow duration[ns] preserves nanosecond precision " ++
  "but its int64 range is narrower than protobuf Duration")⟩

def mapJsonType (kind:JsonKind) : Result MappedType:=do
 let name ← jsonKindName kind
 return ⟨.json,[],.rangeReduced,[.errorf ("protobuf %s is encoded as RFC 8259 text in Arrow's " ++
  "canonical JSON extension type; %s") [.str name,.str (jsonRangeReduction kind)]]⟩

def decimalParameters (precision scale:ℕ) (path:String) : Result (ℕ×ℕ):=do
 rejectIf (precision<1 ∨ precision > 38)
  (.errorf "arrow: decimal field %r precision must be between 1 and 38" [.str path])
 rejectIf (scale > precision)
  (.errorf "arrow: decimal field %r scale must not exceed precision %d" [.str path,.int precision])
 return (precision,scale)

def mapDecimalType (precision scale:ℕ) (path:String) : Result MappedType:=do
 let (precision,scale) ← decimalParameters precision scale path
 return ⟨.decimal128 precision scale,[],.representationChanged,[.errorf ("canonical decimal " ++
  "text is decoded into Arrow decimal128(%d, %d); precision and scale are preserved but the " ++
  "physical representation changes") [.int precision,.int scale]]⟩

def mapUuidType (uuidSupport:Bool) (path:String) : Result MappedType:=do
 rejectIf (uuidSupport=false)
  (.errorf "arrow: field %r requires a PyArrow release with UUID support" [.str path])
 return ⟨.uuid,[],.representationChanged,plain ("canonical UUID text is decoded into Arrow's " ++
  "UUID extension type over fixed-size binary[16]")⟩

def fixedBytesLength (byteLength:ℕ) (path:String) : Result ℕ:=do
 rejectIf (byteLength<1 ∨ byteLength > maxInt32)
  (.errorf "arrow: fixed-bytes field %r length must be between 1 and %d bytes"
   [.str path,.int maxInt32])
 return byteLength

def mapFixedBytesType (byteLength:ℕ) (path:String) : Result MappedType:=do
 let width ← fixedBytesLength byteLength path
 return ⟨.fixedSizeBinary width,[],.lossless,[.errorf ("exact-width protobuf bytes map " ++
  "losslessly to Arrow fixed_size_binary[%d]") [.int width]]⟩

def fieldMetadata (a:FieldAttributes) (t:DataType) : Result Metadata:=do
 let presence ← presenceName a.presence
 return compactMetadata [
  ("invariant.description",a.description),
  ("invariant.logical_type",logicalTypeName t),
  ("invariant.oneof",a.oneof),
  ("invariant.presence",presence),
  ("invariant.proto.full_name",a.protoFullName),
  ("invariant.proto.has_default",formatBool a.hasDefault),
  ("invariant.proto.json_name",a.jsonName),
  ("invariant.proto.number_path",numberPath a.protoNumberPath),
  ("invariant.protobuf_type",t.protobufType),
  ("invariant.stable_id",formatInt a.stableId),
  ("PARQUET:field_id",formatInt a.stableId)] ++
 defaultMetadata a++enumMetadata pythonEnumValues t

def fieldDiagnostic (a:FieldAttributes) (path:String) (mapped:MappedType) :
  MappingDiagnostic :=
 noteOneof ("; Arrow records membership in oneof %r as metadata but does not enforce mutual " ++
  "exclusivity") a.oneof ⟨path,mapped.compatibility,mapped.message⟩

variable (uuidSupport:Bool)

mutual

/-- A child that is not set reads as a field without a type. -/
def mapField : Field → String → Result (ArrowField×List MappingDiagnostic)
 | .nil,path=>.error (.errorf "arrow: field %r has no logical type" [.str path])
 | .mk _ .nil,path=>.error (.errorf "arrow: field %r has no logical type" [.str path])
 | .mk a t,path=>do
  let mapped ← mapType t path
  let metadata ← fieldMetadata a t
  return (.mk a.name mapped.type a.nullable metadata,
   fieldDiagnostic a path mapped::mapped.children)

def mapType : DataType → String → Result MappedType
 | .primitive _ kind,_=>mapPrimitiveType kind
 | .enum _ enum,_=>.ok (mapEnumType enum)
 | .struct _ fields,path=>do
  let (mapped,diagnostics) ← mapFields path [] [] fields
  return lossless (.struct mapped) diagnostics "protobuf message maps to an Arrow struct"
 | .list _ element fixedLength,path=>do
  let (mapped,diagnostics) ← mapField element (path++"[]")
  mapListType fixedLength path mapped diagnostics
 | .map _ key value,path=>do
  let (key,keyDiagnostics) ← mapField key (path++".key")
  let (value,valueDiagnostics) ← mapField value (path++".value")
  return lossless (.map (key.withName "key").nonNull (value.withName "value"))
   (keyDiagnostics++valueDiagnostics)
   "protobuf map maps to an Arrow map with typed key and value children"
 | .timestamp _ unit timezone,path=>mapTimestampType unit timezone path
 | .duration _ unit,path=>mapDurationType unit path
 | .json _ kind,_=>mapJsonType kind
 | .decimal _ precision scale,path=>mapDecimalType precision scale path
 | .uuid _,path=>mapUuidType uuidSupport path
 | .fixedBytes _ byteLength,path=>mapFixedBytesType byteLength path
 | .nil,path=>.error (.errorf "arrow: field %r has an unspecified logical type" [.str path])
 | .unset _,path=>.error (.errorf "arrow: field %r has an unspecified logical type" [.str path])

def mapFields (path:String) (fields:List ArrowField) (diagnostics:List MappingDiagnostic) :
  List Field → Result (List ArrowField×List MappingDiagnostic)
 | []=>.ok (fields,diagnostics)
 | child::rest=>do
  let (mapped,childDiagnostics) ← mapField child (joinPath path child.attributes.name)
  mapFields path (fields++[mapped]) (diagnostics++childDiagnostics) rest
end

def arrowSchema (dataset:DatasetSchema) : Result (Schema×List MappingDiagnostic):=do
 let (fields,diagnostics) ← mapFields uuidSupport "" [] [] dataset.fields
 return (⟨fields,compactMetadata [
  ("invariant.description",dataset.description),
  ("invariant.dataset",dataset.name),
  ("invariant.last_field_id",formatInt dataset.lastFieldId),
  ("invariant.source_message",dataset.sourceMessage)]⟩,diagnostics)
end InvariantProtocol.PythonArrow
