import Mathlib.Data.Int.Notation
import Mathlib.Data.List.Basic
/-! The `invariant.data.v1` schema messages. `Field` and `DataType` stand for Go pointers, so both have a
`nil`; the enumerations are open. -/
namespace InvariantProtocol.DataSchema

inductive PrimitiveKind where
 | unspecified | double | float | int64 | uint64 | int32 | fixed64 | fixed32 | bool | string
 | bytes | uint32 | sfixed32 | sfixed64 | sint32 | sint64
 | unrecognized (number:ℤ)
 deriving DecidableEq

inductive Presence where
 | unspecified | implicit | explicit | required | oneof | repeated | map | notApplicable
 | unrecognized (number:ℤ)
 deriving DecidableEq

inductive SyntheticRole where
 | unspecified | protoField | listElement | mapKey | mapValue
 | unrecognized (number:ℤ)
 deriving DecidableEq

inductive TimeUnit where
 | unspecified | nanosecond
 | unrecognized (number:ℤ)
 deriving DecidableEq

inductive JsonKind where
 | unspecified | any | struct | value | listValue
 | unrecognized (number:ℤ)
 deriving DecidableEq

structure EnumValue where
 name : String
 number : ℤ
 description : String

structure EnumType where
 fullName : String
 values : List EnumValue
 closed : Bool

/-- The fields of `datav1.Field` other than its type. -/
structure FieldAttributes where
 protoFullName : String
 protoNumberPath : List UInt32
 name : String
 stableId : ℤ
 presence : Presence
 nullable : Bool
 oneof : String := ""
 description : String := ""
 syntheticRole : SyntheticRole
 hasDefault : Bool:=false
 protobufDefault : String := ""
 jsonName : String := ""
 storageNameSource : String := ""

mutual

inductive Field where
 | nil
 | mk (attributes:FieldAttributes) (type:DataType)

inductive DataType where
 | nil
 | unset (protobufType:String)
 | primitive (protobufType:String) (kind:PrimitiveKind)
 | enum (protobufType:String) (enum:EnumType)
 | struct (protobufType:String) (fields:List Field)
 | list (protobufType:String) (element:Field) (fixedLength:ℕ)
 | map (protobufType:String) (key value:Field)
 | timestamp (protobufType:String) (unit:TimeUnit) (timezone:String)
 | duration (protobufType:String) (unit:TimeUnit)
 | json (protobufType:String) (kind:JsonKind)
 | decimal (protobufType:String) (precision scale:ℕ)
 | uuid (protobufType:String)
 | fixedBytes (protobufType:String) (byteLength:ℕ)
end

structure RetiredField where
 identity : String
 stableId : ℤ
 protoFullName : String
 name : String
 storageNameSource : String
 deriving DecidableEq

structure DatasetSchema where
 sourceMessage : String
 name : String
 description : String
 fields : List Field
 lastFieldId : ℤ
 retiredFields : List RetiredField

def DataType.protobufType : DataType → String
 | .nil=>""
 | .unset p=>p
 | .primitive p _=>p
 | .enum p _=>p
 | .struct p _=>p
 | .list p _ _=>p
 | .map p _ _=>p
 | .timestamp p _ _=>p
 | .duration p _=>p
 | .json p _=>p
 | .decimal p _ _=>p
 | .uuid p=>p
 | .fixedBytes p _=>p

def DataType.children : DataType → List Field
 | .struct _ fields=>fields
 | .list _ element _=>[element]
 | .map _ key value=>[key,value]
 | _=>[]

def Field.isNil : Field → Bool
 | .nil=>true
 | .mk _ _=>false

/-- The Go getters read the zero value through a nil pointer. -/
def Field.attributes : Field → FieldAttributes
 | .nil=>⟨"",[],"",0,.unspecified,false,"","",.unspecified,false,"","",""⟩
 | .mk attributes _=>attributes

def Field.type : Field → DataType
 | .nil=>.nil
 | .mk _ type=>type

@[simp] lemma Field.attributes_mk (a:FieldAttributes) (t:DataType) :
 (Field.mk a t).attributes=a := rfl

@[simp] lemma Field.type_mk (a:FieldAttributes) (t:DataType) : (Field.mk a t).type=t := rfl

lemma Field.sizeOf_child {a:FieldAttributes} {t:DataType} {f:Field} (h:f∈t.children) :
 sizeOf f<sizeOf (Field.mk a t) := by
 cases t with
 | struct p fields=>
  have hf:=List.sizeOf_lt_of_mem (show f∈fields from h)
  simp only [Field.mk.sizeOf_spec,DataType.struct.sizeOf_spec]
  omega
 | list p element n=>
  obtain rfl : f=element:=by simpa [DataType.children] using h
  simp only [Field.mk.sizeOf_spec,DataType.list.sizeOf_spec]
  omega
 | map p key value=>
  obtain rfl|rfl : f=key ∨ f=value:=by simpa [DataType.children] using h
  all_goals
   simp only [Field.mk.sizeOf_spec,DataType.map.sizeOf_spec]
   omega
 | _=>simp [DataType.children] at h

/-- Tree induction: a property of every field follows from its children's. -/
theorem Field.tree_induction {P:Field → Prop} (hnil:P .nil)
 (hmk:∀a t,(∀f∈t.children,P f) → P (.mk a t)) (field:Field) : P field :=
 match field with
 | .nil=>hnil
 | .mk a t=>hmk a t fun f _h=>Field.tree_induction hnil hmk f
termination_by sizeOf field
decreasing_by exact Field.sizeOf_child _h
end InvariantProtocol.DataSchema
