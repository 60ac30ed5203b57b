import InvariantProtocol.GoText
import Mathlib.Data.List.Sort
/-! Protobuf descriptors as `protoreflect` exposes them. Messages refer to each other by full name, so
a set of files may contain cycles. -/
namespace InvariantProtocol.ProtoDescriptor
open GoText

def isLetter (c:Char) : Bool:=c = '_' || c.isAlpha

def isLetterOrDigit (c:Char) : Bool:=isLetter c || c.isDigit

def nameIsValid (name:String) : Bool :=
 match name.toList with
 | []=>false
 | c::cs=>isLetter c && cs.all isLetterOrDigit

def fullNameIsValid (name:String) : Bool:=(split '.' name).all nameIsValid

def fullNameName (name:String) : String:=afterLast '.' name

def fullNameAppend (parent name:String) : String :=
 if parent = "" then name else parent++"."++name

structure Comments where
 leading : String := ""
 trailing : String := ""
 deriving DecidableEq,Inhabited

structure EnumValueDescriptor where
 name : String
 number : ℤ
 comments : Comments:={}
 deriving DecidableEq

structure EnumDescriptor where
 fullName : String
 values : List EnumValueDescriptor
 isClosed : Bool
 deriving DecidableEq

/-- `protoreflect.Kind`, together with the enum or message it refers to. -/
inductive Kind where
 | double | float | int64 | uint64 | int32 | fixed64 | fixed32 | bool | string | bytes
 | uint32 | sfixed32 | sfixed64 | sint32 | sint64
 | enum (descriptor:EnumDescriptor)
 | message (fullName:String)
 | group (fullName:String)
 deriving DecidableEq

inductive Cardinality where
 | optional | required | repeated
 deriving DecidableEq

structure OneofDescriptor where
 name : String
 isSynthetic : Bool
 deriving DecidableEq

/-- The `semantic_type` oneof of the field option; `unknown` records unknown fields inside
  the chosen message. -/
inductive SemanticType where
 | decimal (precision scale:ℕ) (unknown:Bool)
 | uuid (unknown:Bool)
 | fixedBytes (byteLength:ℕ) (unknown:Bool)
 deriving DecidableEq

def SemanticType.hasUnknown : SemanticType → Bool
 | .decimal _ _ unknown=>unknown
 | .uuid unknown=>unknown
 | .fixedBytes _ unknown=>unknown

def SemanticType.fieldName : SemanticType → String
 | .decimal _ _ _=>"decimal"
 | .uuid _=>"uuid"
 | .fixedBytes _ _=>"fixed_bytes"

structure FixedListOptions where
 length : ℕ
 unknown : Bool:=false
 deriving DecidableEq

structure FieldOptions where
 semanticType : Option SemanticType:=none
 fixedList : Option FixedListOptions:=none
 unknown : Bool:=false
 deriving DecidableEq

/-- `default` is the text `protodesc.ToFieldDescriptorProto` gives the declared default. -/
structure FieldDescriptor where
 name : String
 number : Int32
 kind : Kind
 cardinality : Cardinality:=.optional
 containingOneof : Option OneofDescriptor:=none
 fieldPresence : Bool:=false
 default : Option String:=none
 jsonName : String := ""
 options : Option FieldOptions:=none
 comments : Comments:={}
 deriving DecidableEq

/-- Reserved ranges are half open, as in `protoreflect.FieldRanges`. -/
structure MessageDescriptor where
 fullName : String
 fields : List FieldDescriptor
 isMapEntry : Bool:=false
 extensionRanges : ℕ:=0
 reservedNames : List String:=[]
 reservedRanges : List (ℤ×ℤ):=[]
 comments : Comments:={}

structure Files where
 messages : List MessageDescriptor

structure Descriptor where
 files : Files
 message : MessageDescriptor

def Files.findMessage (files:Files) (fullName:String) : Option MessageDescriptor :=
 files.messages.find? (·.fullName=fullName)

lemma Files.findMessage_fullName {files:Files} {name:String} {md:MessageDescriptor}
 (h:files.findMessage name=some md) : md.fullName=name := by
 simpa using List.find?_some h

def FieldDescriptor.fullName (md:MessageDescriptor) (fd:FieldDescriptor) : String :=
 fullNameAppend md.fullName fd.name

def FieldDescriptor.messageType (files:Files) (fd:FieldDescriptor) : Option MessageDescriptor :=
 match fd.kind with
 | .message name=>files.findMessage name
 | .group name=>files.findMessage name
 | _=>none

def FieldDescriptor.isMap (files:Files) (fd:FieldDescriptor) : Bool :=
 (fd.messageType files).any (·.isMapEntry)

def FieldDescriptor.isList (files:Files) (fd:FieldDescriptor) : Bool :=
 fd.cardinality=.repeated && !fd.isMap files

def MessageDescriptor.fieldByNumber (md:MessageDescriptor) (number:Int32) :
  Option FieldDescriptor:=md.fields.find? (·.number=number)

def FieldDescriptor.mapKey (files:Files) (fd:FieldDescriptor) : Option FieldDescriptor :=
 (fd.messageType files).bind (·.fieldByNumber 1)

def FieldDescriptor.mapValue (files:Files) (fd:FieldDescriptor) : Option FieldDescriptor :=
 (fd.messageType files).bind (·.fieldByNumber 2)

def FieldDescriptor.hasPresence (files:Files) (fd:FieldDescriptor) : Bool :=
 fd.cardinality≠.repeated &&
  (fd.fieldPresence || (fd.messageType files).isSome || fd.containingOneof.isSome)

def MessageDescriptor.reservesName (md:MessageDescriptor) (name:String) : Bool :=
 name∈md.reservedNames

def MessageDescriptor.reservesNumber (md:MessageDescriptor) (number:ℤ) : Bool :=
 md.reservedRanges.any fun range=>range.1≤number && number<range.2

def sortedFields (fields:List FieldDescriptor) : List FieldDescriptor :=
 fields.insertionSort fun left right=>left.number.toInt≤right.number.toInt

lemma mem_sortedFields {fd:FieldDescriptor} {fields:List FieldDescriptor} :
 fd∈sortedFields fields ↔ fd∈fields :=
 List.mem_insertionSort _
end InvariantProtocol.ProtoDescriptor
