import InvariantProtocol.PythonArrow
/-! `data_arrow.py`: `_validate_message_descriptor`. A declared field and its `FieldDescriptorProto`
are one here. -/
namespace InvariantProtocol.PythonDescriptor
open GoResult DataSchema ProtoDescriptor PythonArrow
open DataCompiler (primitiveKind)
open ClickHouseSchema (isNilType)

def descriptorMismatch (path reason:String) (args:List FormatArg:=[]) : GoError :=
 .wrapf "arrow: protobuf descriptor does not match the SchemaBundle at %r: %s" [.str path]
  (.errorf reason args)

def isMapField (files:Files) (fd:FieldDescriptor) : Bool :=
 fd.cardinality=.repeated && (fd.messageType files).any (·.isMapEntry)

/-- A proto3 optional field is the only member of a synthetic oneof. -/
def proto3Optional (fd:FieldDescriptor) : Bool:=fd.containingOneof.any (·.isSynthetic)

def descriptorPresence (files:Files) (fd:FieldDescriptor) : Presence×Bool×String :=
 if isMapField files fd then (.map,false,"")
 else if fd.cardinality=.repeated then (.repeated,false,"")
 else if fd.cardinality=.required then (.required,false,"")
 else if fd.containingOneof.isSome ∧ proto3Optional fd=false then
  (.oneof,true,(fd.containingOneof.map OneofDescriptor.name).getD "")
 else if fd.hasPresence files then (.explicit,true,"")
 else (.implicit,false,"")

/-- One round of the first loop of `_validate_message_fields`, with the numbers seen so far. -/
def indexField (parent:List UInt32) (path:String) (seen:List UInt32) (logical:Field) :
  Result (List UInt32):=do
 let a:=logical.attributes
 rejectIf (a.syntheticRole≠.protoField)
  (descriptorMismatch path "contains non-protobuf field %r" [.str a.name])
 rejectIf (a.protoNumberPath.length≠parent.length+1)
  (descriptorMismatch path "field %r has an invalid protobuf number path" [.str a.name])
 rejectIf (a.protoNumberPath.dropLast≠parent)
  (descriptorMismatch path "field %r has an invalid protobuf number path" [.str a.name])
 let number:=a.protoNumberPath.getLastD 0
 rejectIf (number∈seen)
  (descriptorMismatch path "duplicates protobuf field number %d" [.int number.toNat])
 return seen++[number]

def declaredNumbers (md:MessageDescriptor) : List UInt32 :=
 md.fields.map fun fd=>fd.number.toUInt32

/-- `_validate_message_fields` up to the comparison of the field numbers. -/
def checkNumbers (md:MessageDescriptor) (parent:List UInt32) (path:String)
  (logicalFields:List Field) : Result Unit:=do
 let logicalNumbers ← loop (indexField parent path) [] logicalFields
 let missing:=(declaredNumbers md).filter (· ∉ logicalNumbers)
 let extra:=logicalNumbers.filter (· ∉ declaredNumbers md)
 rejectIf (missing≠[] ∨ extra≠[])
  (descriptorMismatch path "field numbers differ: missing=%s, extra=%s"
   [.numbers (missing.insertionSort (· ≤ ·)),.numbers (extra.insertionSort (· ≤ ·))])

def checkPresence (files:Files) (a:FieldAttributes) (fd:FieldDescriptor) (path:String) :
  Result Unit:=do
 let (presence,nullable,oneof):=descriptorPresence files fd
 rejectIf (a.presence≠presence ∨ a.nullable≠nullable)
  (descriptorMismatch path "protobuf presence does not match the SchemaBundle")
 rejectIf (a.oneof≠oneof)
  (descriptorMismatch path "protobuf oneof is %r, expected %r" [.str oneof,.str a.oneof])

def expectedName : SyntheticRole → String
 | .listElement=>"element"
 | .mapKey=>"key"
 | .mapValue=>"value"
 | _=>""

/-- The checks of `_validate_synthetic_field` before it looks at the type. -/
def checkChild (a:FieldAttributes) (numberPath:List UInt32) (path:String)
  (role:SyntheticRole) (protoFullName:String) : Result Unit:=do
 rejectIf (a.syntheticRole≠role)
  (descriptorMismatch path "SchemaBundle collection child has the wrong role")
 rejectIf (a.protoNumberPath≠numberPath)
  (descriptorMismatch path "SchemaBundle collection child has the wrong protobuf number path")
 rejectIf (a.protoFullName≠protoFullName)
  (descriptorMismatch path "SchemaBundle collection child name is %r, expected %r"
   [.str a.protoFullName,.str protoFullName])
 rejectIf (a.name≠expectedName role)
  (descriptorMismatch path "SchemaBundle collection child name is %r, expected %r"
   [.str a.name,.str (expectedName role)])
 rejectIf (a.presence≠.notApplicable ∨ a.nullable=true ∨ a.oneof≠"" ∨ a.hasDefault=true ∨
   a.protobufDefault≠"" ∨ a.jsonName≠"")
  (descriptorMismatch path
   "SchemaBundle collection child has invalid presence or default metadata")

def checkPrimitive (logical:DataType) (kind:Kind) (expected:PrimitiveKind) (path:String) :
  Result Unit :=
 match logical with
 | .decimal p _ _=>rejectIf (kind≠.string ∨ p≠"")
   (descriptorMismatch path "logical decimal requires a protobuf string carrier")
 | .uuid p=>rejectIf (kind≠.string ∨ p≠"")
   (descriptorMismatch path "logical uuid requires a protobuf string carrier")
 | .fixedBytes p _=>rejectIf (kind≠.bytes ∨ p≠"")
   (descriptorMismatch path "logical fixed_bytes requires a protobuf bytes carrier")
 | .primitive p actual=>rejectIf (actual≠expected ∨ p≠"")
   (descriptorMismatch path "protobuf primitive kind does not match the SchemaBundle")
 | _=>.error (descriptorMismatch path "protobuf primitive kind does not match the SchemaBundle")

def checkEnum (logical:DataType) (ed:EnumDescriptor) (path:String) : Result Unit :=
 match logical with
 | .enum p enum=>do
  rejectIf (p≠ed.fullName ∨ enum.fullName≠ed.fullName ∨ enum.closed≠ed.isClosed)
   (descriptorMismatch path "protobuf enum type does not match the SchemaBundle")
  rejectIf ((enum.values.map fun value=>(value.name,value.number)) ≠
    ed.values.map fun value=>(value.name,value.number))
   (descriptorMismatch path "protobuf enum values do not match the SchemaBundle")
 | _=>.error (descriptorMismatch path "protobuf enum type does not match the SchemaBundle")

def wrapperKinds : List (String×PrimitiveKind) :=
 [("google.protobuf.BoolValue",.bool),("google.protobuf.BytesValue",.bytes),
  ("google.protobuf.DoubleValue",.double),("google.protobuf.FloatValue",.float),
  ("google.protobuf.Int32Value",.int32),("google.protobuf.Int64Value",.int64),
  ("google.protobuf.StringValue",.string),("google.protobuf.UInt32Value",.uint32),
  ("google.protobuf.UInt64Value",.uint64)]

def jsonKinds : List (String×JsonKind) :=
 [("google.protobuf.Any",.any),("google.protobuf.Struct",.struct),
  ("google.protobuf.Value",.value),("google.protobuf.ListValue",.listValue)]

def checkWrapper (logical:DataType) (fullName:String) (expected:PrimitiveKind)
  (path:String) : Result Unit :=
 match logical with
 | .primitive p kind=>rejectIf (p≠fullName ∨ kind≠expected)
   (descriptorMismatch path "protobuf wrapper type does not match the SchemaBundle")
 | _=>.error (descriptorMismatch path "protobuf wrapper type does not match the SchemaBundle")

def checkTimestamp (logical:DataType) (fullName path:String) : Result Unit :=
 match logical with
 | .timestamp p unit timezone=>
  rejectIf (p≠fullName ∨ unit≠.nanosecond ∨ timezone≠"UTC")
   (descriptorMismatch path "protobuf Timestamp does not match the SchemaBundle")
 | _=>.error (descriptorMismatch path "protobuf Timestamp does not match the SchemaBundle")

def checkDuration (logical:DataType) (fullName path:String) : Result Unit :=
 match logical with
 | .duration p unit=>rejectIf (p≠fullName ∨ unit≠.nanosecond)
   (descriptorMismatch path "protobuf Duration does not match the SchemaBundle")
 | _=>.error (descriptorMismatch path "protobuf Duration does not match the SchemaBundle")

def checkJson (logical:DataType) (fullName:String) (expected:JsonKind) (path:String) :
  Result Unit :=
 match logical with
 | .json p kind=>rejectIf (p≠fullName ∨ kind≠expected)
   (descriptorMismatch path "protobuf JSON well-known type does not match the SchemaBundle")
 | _=>.error
   (descriptorMismatch path "protobuf JSON well-known type does not match the SchemaBundle")

/-- The branches of `_validate_value_type` for well-known messages; `none` for any other. -/
def checkWellKnown (logical:DataType) (fullName path:String) : Option (Result Unit) :=
 match wrapperKinds.lookup fullName with
 | some kind=>some (checkWrapper logical fullName kind path)
 | none=>
  if fullName = "google.protobuf.Timestamp" then some (checkTimestamp logical fullName path)
  else if fullName = "google.protobuf.Duration" then some (checkDuration logical fullName path)
  else (jsonKinds.lookup fullName).map fun kind=>checkJson logical fullName kind path

def valueRefinement : DataType → Option FieldOptions
 | .decimal _ precision scale=>some { semanticType:=some (.decimal precision scale false) }
 | .uuid _=>some { semanticType:=some (.uuid false) }
 | .fixedBytes _ byteLength=>some { semanticType:=some (.fixedBytes byteLength false) }
 | _=>none

def expectedRefinement : DataType → Option FieldOptions
 | .list _ element fixedLength=>
  if fixedLength≠0 then some { fixedList:=some { length:=fixedLength } }
  else valueRefinement element.type
 | t=>valueRefinement t

/-- Options with unknown fields serialize to more than the expected ones do. -/
def validateFieldRefinement (logical:DataType) (fd:FieldDescriptor) (path:String) :
  Result Unit :=
 rejectIf (fd.options≠expectedRefinement logical)
  (descriptorMismatch path "Invariant field refinement does not match the SchemaBundle")

def validateFieldType (files:Files) (logical:DataType) (fd:FieldDescriptor) (path:String)
  (asMap asList asValue:Result Unit) : Result Unit:=do
 rejectIf (isNilType logical=true)
  (descriptorMismatch path "SchemaBundle field has no logical type")
 if isMapField files fd then asMap else if fd.cardinality=.repeated then asList else asValue

def entryField (files:Files) (fd:FieldDescriptor) (name:String) : Result FieldDescriptor :=
 match (fd.messageType files).bind fun entry=>entry.fields.find? (·.name=name) with
 | none=>.error (.errorf "%r" [.str name])
 | some field=>.ok field

section

-- The text of a declared default in the file that declares it; Go prints the value anew.
variable (defaultValue:FieldDescriptor → String) (files:Files)
def checkField (a:FieldAttributes) (md:MessageDescriptor) (fd:FieldDescriptor)
  (path:String) : Result Unit:=do
 rejectIf (a.protoFullName≠fd.fullName md)
  (descriptorMismatch path "protobuf field name is %r, expected %r"
   [.str (fd.fullName md),.str a.protoFullName])
 rejectIf (a.jsonName≠fd.jsonName)
  (descriptorMismatch path "protobuf JSON name is %r, expected %r"
   [.str fd.jsonName,.str a.jsonName])
 checkPresence files a fd path
 rejectIf (a.hasDefault≠fd.default.isSome)
  (descriptorMismatch path
   "protobuf declared-default presence does not match the SchemaBundle")
 rejectIf (fd.default.isSome=true ∧ a.protobufDefault≠defaultValue fd)
  (descriptorMismatch path "protobuf default is %r, expected %r"
   [.str (defaultValue fd),.str a.protobufDefault])

mutual

def validateField (md:MessageDescriptor) (parent:List UInt32) (path:String) :
  Field → Result Unit
 | .nil=>.error (descriptorMismatch path "contains non-protobuf field %r" [.str ""])
 | .mk a t=>do
  let number:=a.protoNumberPath.getLastD 0
  let fieldPath:=joinPath path a.name
  match md.fields.find? fun fd=>fd.number.toUInt32=number with
  | none=>.error (.errorf "%d" [.int number.toNat])
  | some fd=>
   checkField defaultValue files a md fd fieldPath
   let numberPath:=parent++[number]
   validateFieldType files t fd fieldPath (validateMapType t md fd numberPath fieldPath)
    (validateListType t md fd numberPath fieldPath) (validateValueType t fd numberPath fieldPath)
   validateFieldRefinement t fd fieldPath

def validateMapType : DataType → MessageDescriptor → FieldDescriptor → List UInt32 → String →
  Result Unit
 | .map p key value,md,fd,numberPath,path=>do
  rejectIf (p≠"")
   (descriptorMismatch path "protobuf map does not match the SchemaBundle logical type")
  let keyField ← entryField files fd "key"
  validateSyntheticField key keyField numberPath (path++".key") .mapKey
   (fd.fullName md++".key")
  let valueField ← entryField files fd "value"
  validateSyntheticField value valueField numberPath (path++".value") .mapValue
   (fd.fullName md++".value")
 | _,_,_,_,path=>
  .error (descriptorMismatch path "protobuf map does not match the SchemaBundle logical type")

def validateListType : DataType → MessageDescriptor → FieldDescriptor → List UInt32 → String →
  Result Unit
 | .list p element _,md,fd,numberPath,path=>do
  rejectIf (p≠"") (descriptorMismatch path
   "protobuf repeated field does not match the SchemaBundle logical type")
  validateSyntheticField element fd numberPath (path++"[]") .listElement (fd.fullName md++"[]")
 | _,_,_,_,path=>.error (descriptorMismatch path
   "protobuf repeated field does not match the SchemaBundle logical type")

/-- A child that is not there is read as an empty message, which has no role. -/
def validateSyntheticField : Field → FieldDescriptor → List UInt32 → String → SyntheticRole →
  String → Result Unit
 | .nil,_,_,path,_,_=>
  .error (descriptorMismatch path "SchemaBundle collection child has the wrong role")
 | .mk a t,fd,numberPath,path,role,protoFullName=>do
  checkChild a numberPath path role protoFullName
  rejectIf (isNilType t=true)
   (descriptorMismatch path "SchemaBundle collection child has no logical type")
  validateValueType t fd numberPath path

def validateValueType : DataType → FieldDescriptor → List UInt32 → String → Result Unit
 | t,fd,numberPath,path=>
  match primitiveKind fd.kind,fd.kind,fd.messageType files with
  | some kind,_,_=>checkPrimitive t fd.kind kind path
  | none,.enum ed,_=>checkEnum t ed path
  | none,_,none=>.error (.errorf "'NoneType' object has no attribute 'full_name'" [])
  | none,_,some md=>
   match checkWellKnown t md.fullName path with
   | some result=>result
   | none=>
    match t with
    | .struct p fields=>do
     rejectIf (p≠md.fullName)
      (descriptorMismatch path "protobuf message type does not match the SchemaBundle")
     checkNumbers md numberPath path fields
     validateFields md numberPath path fields
    | _=>.error
      (descriptorMismatch path "protobuf message type does not match the SchemaBundle")

def validateFields (md:MessageDescriptor) (parent:List UInt32) (path:String) :
  List Field → Result Unit
 | []=>.ok ()
 | logical::rest=>do
  validateField md parent path logical
  validateFields md parent path rest
end
end

def validateMessageFields (defaultValue:FieldDescriptor → String) (files:Files)
  (logicalFields:List Field) (md:MessageDescriptor) (parent:List UInt32) (path:String) :
  Result Unit:=do
 checkNumbers md parent path logicalFields
 validateFields defaultValue files md parent path logicalFields

def validateMessageDescriptor (defaultValue:FieldDescriptor → String) (dataset:DatasetSchema)
  (m:Descriptor) : Result Unit:=do
 rejectIf (m.message.fullName≠dataset.sourceMessage)
  (.errorf "arrow: dataset %r cannot convert protobuf message %r"
   [.str dataset.sourceMessage,.str m.message.fullName])
 validateMessageFields defaultValue m.files dataset.fields m.message [] dataset.sourceMessage
end InvariantProtocol.PythonDescriptor
