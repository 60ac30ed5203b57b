import InvariantProtocol.DataSchema
import InvariantProtocol.WireMessage
/-! `SchemaBundle`, and a decoded bundle as protobuf reflection shows it, with the unknown bytes of every
sub-message. -/
namespace InvariantProtocol.DataBundle
open DataSchema WireMessage

structure SchemaBundle where
 irVersion : ℕ
 mappingVersion : ℕ
 sourceDescriptorSha256 : List UInt8
 datasets : List DatasetSchema

inductive Scalar where
 | uint32 (value:ℕ)
 | int32 (value:ℤ)
 | bool (value:Bool)
 | enum (number:ℤ)
 | string (value:String)
 | bytes (value:List UInt8)
 | packed (values:List UInt32)
 deriving DecidableEq

abbrev Path:=List (ℕ×ℕ)

structure Decoded where
 bundle : SchemaBundle
 unknown : Path → List UInt8

def primitiveNumber : PrimitiveKind → ℤ
 | .unspecified=>0
 | .double=>1
 | .float=>2
 | .int64=>3
 | .uint64=>4
 | .int32=>5
 | .fixed64=>6
 | .fixed32=>7
 | .bool=>8
 | .string=>9
 | .bytes=>10
 | .uint32=>11
 | .sfixed32=>12
 | .sfixed64=>13
 | .sint32=>14
 | .sint64=>15
 | .unrecognized number=>number

def presenceNumber : Presence → ℤ
 | .unspecified=>0
 | .implicit=>1
 | .explicit=>2
 | .required=>3
 | .oneof=>4
 | .repeated=>5
 | .map=>6
 | .notApplicable=>7
 | .unrecognized number=>number

def roleNumber : SyntheticRole → ℤ
 | .unspecified=>0
 | .protoField=>1
 | .listElement=>2
 | .mapKey=>3
 | .mapValue=>4
 | .unrecognized number=>number

def unitNumber : TimeUnit → ℤ
 | .unspecified=>0
 | .nanosecond=>1
 | .unrecognized number=>number

def jsonNumber : JsonKind → ℤ
 | .unspecified=>0
 | .any=>1
 | .struct=>2
 | .value=>3
 | .listValue=>4
 | .unrecognized number=>number

/-- A scalar field is populated when it is not its default: none of them tracks presence. -/
def implicit (number:ℕ) (name:String) (value default:Scalar) : List (Populated Scalar) :=
 if value=default then [] else [.scalar number name value]

def uint32 (number:ℕ) (name:String) (value:ℕ) : List (Populated Scalar) :=
 implicit number name (.uint32 value) (.uint32 0)

def int32 (number:ℕ) (name:String) (value:ℤ) : List (Populated Scalar) :=
 implicit number name (.int32 value) (.int32 0)

def bool (number:ℕ) (name:String) (value:Bool) : List (Populated Scalar) :=
 implicit number name (.bool value) (.bool false)

def enum (number:ℕ) (name:String) (value:ℤ) : List (Populated Scalar) :=
 implicit number name (.enum value) (.enum 0)

def string (number:ℕ) (name value:String) : List (Populated Scalar) :=
 implicit number name (.string value) (.string "")

def repeated (number:ℕ) (name:String) : List (Message Scalar) → List (Populated Scalar)
 | []=>[]
 | values=>[.messages number name values]

section
variable (unknown:Path → List UInt8)
def reflectEnumValue (path:Path) (value:EnumValue) : Message Scalar :=
 .mk (string 1 "name" value.name++int32 2 "number" value.number ++
  string 3 "description" value.description) (unknown path)

def reflectEnumType (path:Path) (type:EnumType) : Message Scalar :=
 .mk (string 1 "full_name" type.fullName ++
  repeated 2 "values" (type.values.mapIdx fun i value=>
   reflectEnumValue unknown (path++[(2,i)]) value) ++
  bool 3 "closed" type.closed) (unknown path)

def reflectRetiredField (path:Path) (retired:RetiredField) : Message Scalar :=
 .mk (string 1 "identity" retired.identity++int32 2 "stable_id" retired.stableId ++
  string 3 "proto_full_name" retired.protoFullName++string 4 "name" retired.name ++
  string 5 "storage_name_source" retired.storageNameSource) (unknown path)

/-- The `type` field of a `Field` whose type message is at `path`. -/
def typeField (path:Path) (protobufType:String) (kind:List (Populated Scalar)) :
  List (Populated Scalar) :=
 [.message 9 "type" (.mk (string 1 "protobuf_type" protobufType++kind) (unknown path))]

/-- A member of the `kind` oneof of the type message at `path`. -/
def kindField (path:Path) (number:ℕ) (name:String) (fields:List (Populated Scalar)) :
  List (Populated Scalar) :=
 [.message number name (.mk fields (unknown (path++[(number,0)])))]

mutual

def reflectField (path:Path) : Field → Message Scalar
 | .nil=>.mk [] []
 | .mk a type=>
  .mk (string 1 "proto_full_name" a.protoFullName ++
   implicit 2 "proto_number_path" (.packed a.protoNumberPath) (.packed []) ++
   string 3 "name" a.name++int32 4 "stable_id" a.stableId ++
   enum 5 "presence" (presenceNumber a.presence)++bool 6 "nullable" a.nullable ++
   string 7 "oneof" a.oneof++string 8 "description" a.description ++
   reflectType (path++[(9,0)]) type ++
   enum 10 "synthetic_role" (roleNumber a.syntheticRole) ++
   bool 11 "has_default" a.hasDefault++string 12 "protobuf_default" a.protobufDefault ++
   string 13 "json_name" a.jsonName++string 14 "storage_name_source" a.storageNameSource)
   (unknown path)

def reflectType (path:Path) : DataType → List (Populated Scalar)
 | .nil=>[]
 | .unset protobufType=>typeField unknown path protobufType []
 | .primitive protobufType kind=>
  typeField unknown path protobufType
   (kindField unknown path 2 "primitive" (enum 1 "kind" (primitiveNumber kind)))
 | .enum protobufType type=>
  typeField unknown path protobufType
   [.message 3 "enum" (reflectEnumType unknown (path++[(3,0)]) type)]
 | .struct protobufType fields=>
  typeField unknown path protobufType
   (kindField unknown path 4 "struct"
    (repeated 1 "fields" (reflectFields 1 (path++[(4,0)]) 0 fields)))
 | .list protobufType element fixedLength=>
  typeField unknown path protobufType
   (kindField unknown path 5 "list"
    ((if element.isNil then []
     else [.message 1 "element" (reflectField (path++[(5,0),(1,0)]) element)]) ++
     uint32 2 "fixed_length" fixedLength))
 | .map protobufType key value=>
  typeField unknown path protobufType
   (kindField unknown path 6 "map"
    ((if key.isNil then []
     else [.message 1 "key" (reflectField (path++[(6,0),(1,0)]) key)]) ++
     if value.isNil then []
     else [.message 2 "value" (reflectField (path++[(6,0),(2,0)]) value)]))
 | .timestamp protobufType unit timezone=>
  typeField unknown path protobufType
   (kindField unknown path 7 "timestamp"
    (enum 1 "unit" (unitNumber unit)++string 2 "timezone" timezone))
 | .duration protobufType unit=>
  typeField unknown path protobufType
   (kindField unknown path 8 "duration" (enum 1 "unit" (unitNumber unit)))
 | .json protobufType kind=>
  typeField unknown path protobufType
   (kindField unknown path 9 "json" (enum 1 "kind" (jsonNumber kind)))
 | .decimal protobufType precision scale=>
  typeField unknown path protobufType
   (kindField unknown path 10 "decimal"
    (uint32 1 "precision" precision++uint32 2 "scale" scale))
 | .uuid protobufType=>
  typeField unknown path protobufType (kindField unknown path 11 "uuid" [])
 | .fixedBytes protobufType byteLength=>
  typeField unknown path protobufType
   (kindField unknown path 12 "fixed_bytes" (uint32 1 "byte_length" byteLength))

def reflectFields (number:ℕ) (path:Path) (index:ℕ) : List Field → List (Message Scalar)
 | []=>[]
 | field::rest=>
  reflectField (path++[(number,index)]) field::reflectFields number path (index+1) rest
end

def reflectDataset (path:Path) (dataset:DatasetSchema) : Message Scalar :=
 .mk (string 1 "source_message" dataset.sourceMessage++string 2 "name" dataset.name ++
  string 3 "description" dataset.description ++
  repeated 4 "fields" (reflectFields unknown 4 path 0 dataset.fields) ++
  int32 5 "last_field_id" dataset.lastFieldId ++
  repeated 6 "retired_fields" (dataset.retiredFields.mapIdx fun i retired=>
   reflectRetiredField unknown (path++[(6,i)]) retired)) (unknown path)
end

def Decoded.message (decoded:Decoded) : Message Scalar :=
 .mk (uint32 1 "ir_version" decoded.bundle.irVersion ++
  uint32 2 "mapping_version" decoded.bundle.mappingVersion ++
  implicit 3 "source_descriptor_sha256" (.bytes decoded.bundle.sourceDescriptorSha256)
   (.bytes []) ++
  repeated 4 "datasets" (decoded.bundle.datasets.mapIdx fun i dataset=>
   reflectDataset decoded.unknown [(4,i)] dataset)) (decoded.unknown [])
end InvariantProtocol.DataBundle
