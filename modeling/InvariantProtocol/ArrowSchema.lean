import InvariantProtocol.RendererRules
import InvariantProtocol.EnumMetadata
/-! `data/arrow`: the Arrow schema of a dataset. -/
namespace InvariantProtocol.ArrowSchema
open GoResult GoText DataSchema DataMapping DataCompiler RendererRules EnumMetadata
open ClickHouseSchema (joinPath jsonKindText)

abbrev Metadata:=List (String×String)

mutual

inductive ArrowType where
 | float64 | float32 | int64 | uint64 | int32 | uint32 | boolean | utf8 | binary
 | struct (fields:List ArrowField)
 | list (element:ArrowField)
 | fixedSizeList (length:ℕ) (element:ArrowField)
 | map (key value:ArrowField)
 | timestamp (timeZone:String)
 | duration
 | json
 | decimal128 (precision scale:ℕ)
 | uuid
 | fixedSizeBinary (byteWidth:ℕ)

inductive ArrowField where
 | mk (name:String) (type:ArrowType) (nullable:Bool) (metadata:Metadata)
end

structure Schema where
 fields : List ArrowField
 metadata : Metadata

def ArrowField.withName (name:String) : ArrowField → ArrowField
 | .mk _ type nullable metadata=>.mk name type nullable metadata

def ArrowField.nonNull : ArrowField → ArrowField
 | .mk name type _ metadata=>.mk name type false metadata

/-- A map in the order of its literal; the library sorts the keys. -/
def compactMetadata (values:Metadata) : Metadata:=values.filter fun entry=>entry.2≠""

def numberPath (numbers:List UInt32) : String :=
 String.intercalate "." (numbers.map fun number=>formatInt number.toNat)

def logicalTypeName : DataType → String
 | .primitive _ _=>"primitive"
 | .enum _ _=>"enum"
 | .struct _ _=>"struct"
 | .list _ _ fixedLength=>if fixedLength≠0 then "fixed_list" else "list"
 | .map _ _ _=>"map"
 | .timestamp _ _ _=>"timestamp"
 | .duration _ _=>"duration"
 | .json _ _=>"json"
 | .decimal _ _ _=>"decimal"
 | .uuid _=>"uuid"
 | .fixedBytes _ _=>"fixed_bytes"
 | .nil=>"unspecified"
 | .unset _=>"unspecified"

def formatBool (b:Bool) : String:=if b then "true" else "false"

def mapPrimitive : PrimitiveKind → Result ArrowType
 | .double=>.ok .float64
 | .float=>.ok .float32
 | .int64 | .sfixed64 | .sint64=>.ok .int64
 | .uint64 | .fixed64=>.ok .uint64
 | .int32 | .sfixed32 | .sint32=>.ok .int32
 | .fixed32 | .uint32=>.ok .uint32
 | .bool=>.ok .boolean
 | .string=>.ok .utf8
 | .bytes=>.ok .binary
 | kind=>.error (unsupportedPrimitive kind)

/-- The names the Go library prints for the types of primitives. -/
def typeText : ArrowType → String
 | .float64=>"float64"
 | .float32=>"float32"
 | .int64=>"int64"
 | .uint64=>"uint64"
 | .int32=>"int32"
 | .uint32=>"uint32"
 | .boolean=>"bool"
 | .utf8=>"utf8"
 | .binary=>"binary"
 | _=>""

def defaultMetadata (a:FieldAttributes) : Metadata :=
 if a.hasDefault then [("invariant.proto.default",a.protobufDefault)] else []

def enumMetadata (encode:List EnumValue → String) : DataType → Metadata
 | .enum _ type=>[("invariant.enum.closed",formatBool type.closed),
   ("invariant.enum.values",encode type.values)]
 | _=>[]

def fieldMetadata (a:FieldAttributes) (t:DataType) : Metadata :=
 compactMetadata [
  ("invariant.description",a.description),
  ("invariant.logical_type",logicalTypeName t),
  ("invariant.oneof",a.oneof),
  ("invariant.presence",Presence.text a.presence),
  ("invariant.proto.full_name",a.protoFullName),
  ("invariant.proto.has_default",formatBool a.hasDefault),
  ("invariant.proto.json_name",a.jsonName),
  ("invariant.proto.number_path",numberPath a.protoNumberPath),
  ("invariant.protobuf_type",t.protobufType),
  ("invariant.stable_id",formatInt a.stableId),
  ("PARQUET:field_id",formatInt a.stableId)] ++
 defaultMetadata a++enumMetadata goEnumValues t

structure MappedType where
 type : ArrowType
 children : List MappingDiagnostic:=[]
 compatibility : MappingCompatibility
 message : Text

def lossless (type:ArrowType) (children:List MappingDiagnostic) (message:String) :
  MappedType :=
 ⟨type,children,.lossless,plain message⟩

def mapPrimitiveType (kind:PrimitiveKind) (path:String) : Mapping MappedType:=do
 let mapped ← refuse (fun err=>failing (.wrapf "arrow: field %q: %w" [.str path] err))
  (mapPrimitive kind)
 return ⟨mapped,[],.lossless,[.errorf "protobuf %s maps losslessly to Arrow %s"
  [.str (primitiveName kind),.str (typeText mapped)]]⟩

def mapEnumType (enum:EnumType) : MappedType :=
 if enum.closed then
  ⟨.int32,[],.rangeWidened,plain ("closed protobuf enum numbers map to unconstrained Arrow " ++
   "int32; symbols, aliases, and the closed value set are field metadata")⟩
 else lossless .int32 [] ("open protobuf enum numbers map losslessly to Arrow int32; symbols and " ++
  "aliases are field metadata")

def mapListType (fixedLength:ℕ) (path:String) (element:ArrowField)
  (diagnostics:List MappingDiagnostic) : Mapping MappedType :=
 let element:=element.withName "item"
 if fixedLength≠0 then do
  rejectWhen (fixedLength > maxInt32)
   ⟨diagnostics,.errorf "arrow: field %q fixed-list length %d exceeds Arrow's maximum of %d"
    [.str path,.int fixedLength,.int maxInt32]⟩
  return ⟨.fixedSizeList fixedLength element,diagnostics,.lossless,
   [.errorf ("fixed-cardinality protobuf repeated field maps losslessly to Arrow " ++
    "fixed_size_list[%d]") [.int fixedLength]]⟩
 else .ok (lossless (.list element) diagnostics "protobuf repeated field maps to an Arrow list")

def mapTimestampType (unit:TimeUnit) (timezone path:String) : Mapping MappedType:=do
 rejectWhen (unit≠.nanosecond ∨ timezone≠"UTC")
  (failing (.errorf "arrow: field %q has unsupported timestamp unit or timezone" [.str path]))
 return ⟨.timestamp "UTC",[],.rangeReduced,plain ("Arrow timestamp[ns, tz=UTC] preserves " ++
  "nanosecond precision but its int64 range is narrower than protobuf Timestamp")⟩

def mapDurationType (unit:TimeUnit) (path:String) : Mapping MappedType:=do
 rejectWhen (unit≠.nanosecond)
  (failing (.errorf "arrow: field %q has unsupported duration unit" [.str path]))
 return ⟨.duration,[],.rangeReduced,plain ("Arrow duration[ns] preserves nanosecond precision " ++
  "but its int64 range is narrower than protobuf Duration")⟩

def mapJsonType (kind:JsonKind) : MappedType :=
 ⟨.json,[],.rangeReduced,[.errorf ("protobuf %s is encoded as RFC 8259 text in Arrow's " ++
  "canonical JSON extension type; %s")
  [.str (jsonKindText kind),.str (jsonRangeReduction kind)]]⟩

def mapDecimalType (precision scale:ℕ) (path:String) : Mapping MappedType:=do
 let (precision,scale) ← refuse
  (fun err=>failing (.wrapf "arrow: field %q: %w" [.str path] err))
  (decimalParameters precision scale)
 return ⟨.decimal128 precision scale,[],.representationChanged,[.errorf ("canonical decimal " ++
  "text is decoded into Arrow decimal128(%d, %d); precision and scale are preserved but the " ++
  "physical representation changes") [.int precision,.int scale]]⟩

def mapUuidType : MappedType :=
 ⟨.uuid,[],.representationChanged,plain ("canonical UUID text is decoded into Arrow's " ++
  "canonical arrow.uuid extension over fixed-size binary[16]")⟩

def mapFixedBytesType (byteLength:ℕ) (path:String) : Mapping MappedType:=do
 let width ← refuse (fun err=>failing (.wrapf "arrow: field %q: %w" [.str path] err))
  (fixedByteWidth "fixed byte length %d exceeds Arrow IPC's maximum of %d" byteLength)
 return ⟨.fixedSizeBinary width,[],.lossless,[.errorf ("exact-width protobuf bytes map " ++
  "losslessly to Arrow fixed_size_binary[%d]") [.int width]]⟩

def fieldDiagnostic (a:FieldAttributes) (path:String) (mapped:MappedType) :
  MappingDiagnostic :=
 noteOneof ("; Arrow records membership in oneof %q as metadata but does not enforce mutual " ++
  "exclusivity") a.oneof ⟨path,mapped.compatibility,mapped.message⟩

mutual

def mapField : Field → String → Mapping (ArrowField×List MappingDiagnostic)
 | .nil,path=>.error (failing (.errorf "arrow: nil field at %q" [.str path]))
 | .mk _ .nil,path=>.error (failing (.errorf "arrow: field %q has no logical type" [.str path]))
 | .mk a t,path=>do
  let mapped ← mapType t path
  return (.mk a.name mapped.type a.nullable (fieldMetadata a t),
   fieldDiagnostic a path mapped::mapped.children)

def mapType : DataType → String → Mapping MappedType
 | .primitive _ kind,path=>mapPrimitiveType kind path
 | .enum _ enum,_=>.ok (mapEnumType enum)
 | .struct _ fields,path=>do
  let (mapped,diagnostics) ← mapFields path [] [] fields
  return lossless (.struct mapped) diagnostics "protobuf message maps to an Arrow struct"
 | .list _ element fixedLength,path=>do
  let (mapped,diagnostics) ← mapField element (path++"[]")
  mapListType fixedLength path mapped diagnostics
 | .map _ key value,path=>do
  let (key,keyDiagnostics) ← mapField key (path++".key")
  let (value,valueDiagnostics) ← precededBy keyDiagnostics (mapField value (path++".value"))
  return lossless (.map (key.withName "key").nonNull (value.withName "value"))
   (keyDiagnostics++valueDiagnostics)
   "protobuf map maps to an Arrow map with typed key and value children"
 | .timestamp _ unit timezone,path=>mapTimestampType unit timezone path
 | .duration _ unit,path=>mapDurationType unit path
 | .json _ kind,_=>.ok (mapJsonType kind)
 | .decimal _ precision scale,path=>mapDecimalType precision scale path
 | .uuid _,_=>.ok mapUuidType
 | .fixedBytes _ byteLength,path=>mapFixedBytesType byteLength path
 | .nil,path=>
  .error (failing (.errorf "arrow: field %q has an unspecified logical type" [.str path]))
 | .unset _,path=>
  .error (failing (.errorf "arrow: field %q has an unspecified logical type" [.str path]))

def mapFields (path:String) (fields:List ArrowField) (diagnostics:List MappingDiagnostic) :
  List Field → Mapping (List ArrowField×List MappingDiagnostic)
 | []=>.ok (fields,diagnostics)
 | child::rest=>do
  let (mapped,childDiagnostics) ← havingCollected diagnostics
   (mapField child (joinPath path child.attributes.name))
  mapFields path (fields++[mapped]) (diagnostics++childDiagnostics) rest
end

def schemaMetadata (dataset:DatasetSchema) : Metadata :=
 compactMetadata [
  ("invariant.description",dataset.description),
  ("invariant.dataset",dataset.name),
  ("invariant.last_field_id",formatInt dataset.lastFieldId),
  ("invariant.source_message",dataset.sourceMessage)]

def schema (dataset:DatasetSchema) : Mapping (Schema×List MappingDiagnostic):=do
 let (fields,diagnostics) ← mapFields "" [] [] dataset.fields
 return (⟨fields,schemaMetadata dataset⟩,diagnostics)
end InvariantProtocol.ArrowSchema
