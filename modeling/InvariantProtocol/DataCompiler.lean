import InvariantProtocol.CompilerState
/-! The recursive descriptor walk and `CompileMessage`. Only the value of a message-typed field
descends, so the recursion is fuelled there alone. -/
namespace InvariantProtocol.DataCompiler
open GoResult GoText DataSchema DataIdentity DataNames ProtoDescriptor CompilerState

def maxFixedBytesLength : ℕ:=2^31-1

def maxFixedListLength : ℕ:=2^31-1

def Kind.text : Kind → String
 | .double=>"double"
 | .float=>"float"
 | .int64=>"int64"
 | .uint64=>"uint64"
 | .int32=>"int32"
 | .fixed64=>"fixed64"
 | .fixed32=>"fixed32"
 | .bool=>"bool"
 | .string=>"string"
 | .bytes=>"bytes"
 | .uint32=>"uint32"
 | .sfixed32=>"sfixed32"
 | .sfixed64=>"sfixed64"
 | .sint32=>"sint32"
 | .sint64=>"sint64"
 | .enum _=>"enum"
 | .message _=>"message"
 | .group _=>"group"

def Presence.text : Presence → String
 | .unspecified=>"PRESENCE_UNSPECIFIED"
 | .implicit=>"PRESENCE_IMPLICIT"
 | .explicit=>"PRESENCE_EXPLICIT"
 | .required=>"PRESENCE_REQUIRED"
 | .oneof=>"PRESENCE_ONEOF"
 | .repeated=>"PRESENCE_REPEATED"
 | .map=>"PRESENCE_MAP"
 | .notApplicable=>"PRESENCE_NOT_APPLICABLE"
 | .unrecognized number=>formatInt number

def primitiveKind : Kind → Option PrimitiveKind
 | .double=>some .double
 | .float=>some .float
 | .int64=>some .int64
 | .uint64=>some .uint64
 | .int32=>some .int32
 | .fixed64=>some .fixed64
 | .fixed32=>some .fixed32
 | .bool=>some .bool
 | .string=>some .string
 | .bytes=>some .bytes
 | .uint32=>some .uint32
 | .sfixed32=>some .sfixed32
 | .sfixed64=>some .sfixed64
 | .sint32=>some .sint32
 | .sint64=>some .sint64
 | .enum _=>none
 | .message _=>none
 | .group _=>none

def wrapperType (name:String) (kind:PrimitiveKind) : DataType:=.primitive name kind

def jsonType (name:String) (kind:JsonKind) : DataType:=.json name kind

def wellKnownTypes : List (String×DataType) :=
 ([("google.protobuf.DoubleValue",.double),("google.protobuf.FloatValue",.float),
  ("google.protobuf.Int64Value",.int64),("google.protobuf.UInt64Value",.uint64),
  ("google.protobuf.Int32Value",.int32),("google.protobuf.UInt32Value",.uint32),
  ("google.protobuf.BoolValue",.bool),("google.protobuf.StringValue",.string),
  ("google.protobuf.BytesValue",.bytes)].map fun (name,kind)=>(name,wrapperType name kind)) ++
 [("google.protobuf.Timestamp",.timestamp "google.protobuf.Timestamp" .nanosecond "UTC"),
  ("google.protobuf.Duration",.duration "google.protobuf.Duration" .nanosecond)] ++
 ([("google.protobuf.Any",.any),("google.protobuf.Struct",.struct),
  ("google.protobuf.Value",.value),("google.protobuf.ListValue",.listValue)].map
   fun (name,kind)=>(name,jsonType name kind))

def wellKnownType (name:String) : Option DataType :=
 (wellKnownTypes.find? fun entry=>entry.1=name).map Prod.snd

def fieldPresence (files:Files) (fd:FieldDescriptor) : Presence×Bool×String :=
 if fd.isMap files then (.map,false,"")
 else if fd.isList files then (.repeated,false,"")
 else if fd.cardinality=.required then (.required,false,"")
 else match fd.containingOneof with
  | some oneof=>
   if oneof.isSynthetic=false then (.oneof,true,oneof.name)
   else if fd.hasPresence files then (.explicit,true,"")
   else (.implicit,false,"")
  | none=>if fd.hasPresence files then (.explicit,true,"") else (.implicit,false,"")

def descriptorComment (comments:Comments) : String :=
 if trimSpace comments.leading≠"" then trimSpace comments.leading else trimSpace comments.trailing

def rejectExtensionRanges (md:MessageDescriptor) : Result Unit :=
 rejectIf (md.extensionRanges≠0)
  (.errorf ("protobuf message %q declares extension ranges; proto2 extensions cannot be " ++
   "represented in a finite data schema") [.str md.fullName])

/-- `rejectUnknownFields` over the field option and its submessages. -/
def dataFieldOptions (fd:FieldDescriptor) : Result (Option FieldOptions) :=
 match fd.options with
 | none=>.ok none
 | some options=>do
  rejectIf options.unknown
   (.errorf "%s contains fields %s" [.str "field option",.str "unsupported by this compiler"])
  rejectIf (options.semanticType.any SemanticType.hasUnknown)
   (.errorf "%s contains fields %s"
    [.str ("field option."++(options.semanticType.map SemanticType.fieldName).getD ""),
     .str "unsupported by this compiler"])
  rejectIf (options.fixedList.any FixedListOptions.unknown)
   (.errorf "%s contains fields %s"
    [.str "field option.fixed_list",.str "unsupported by this compiler"])
  return some options

/-- A field that was there before keeps its source, and pins both old names. -/
def previousStorageSource (previous:Field) (md:MessageDescriptor) (fd:FieldDescriptor) :
  Result String:=do
 let p:=previous.attributes
 let previousSource ← wrap "previous proto_full_name: %w" [] (exactProtoFieldName p.protoFullName)
 rejectIf (p.protoFullName≠fullNameAppend md.fullName previousSource)
  (.errorf "previous proto_full_name %q is not a field of current containing message %q"
   [.str p.protoFullName,.str md.fullName])
 rejectIf (previousSource≠fd.name ∧ ¬md.reservesName previousSource)
  (.errorf ("same-number rename from %q to %q must reserve the exact previous protobuf " ++
   "field name %q") [.str previousSource,.str fd.name,.str previousSource])
 rejectIf (p.storageNameSource≠fd.name ∧ ¬md.reservesName p.storageNameSource)
  (.errorf ("original storage-name source %q must remain an exact reserved protobuf " ++
   "field name") [.str p.storageNameSource])
 return p.storageNameSource

def storageFieldName (h:CompilerHistory) (identity parentIdentity:String)
  (md:MessageDescriptor) (fd:FieldDescriptor) : Result (String×String):=do
 let storageSource ← match h.previousFields.lookup identity with
  | none=>.ok fd.name
  | some previous=>previousStorageSource previous md fd
 let name:=storageName storageSource
 let owner:=historicalNameOwner h parentIdentity name
 rejectIf (owner≠"" ∧ owner≠identity)
  (.errorf ("storage name %q in this logical scope is permanently owned by compiler identity " ++
   "%q, not new identity %q") [.str name,.str owner,.str identity])
 return (name,storageSource)

abbrev ValueCompiler:=DatasetCompiler → FieldDescriptor → List UInt32 → String → List String →
 Result (DataType×DatasetCompiler)

def refinedType (fd:FieldDescriptor) (options:FieldOptions) : Result DataType :=
 match options.semanticType with
 | some (.decimal precision scale _)=>do
  rejectIf (fd.kind≠.string)
   (.errorf "decimal refinement requires a protobuf string carrier, got %s"
    [.str (Kind.text fd.kind)])
  rejectIf (precision<1 ∨ precision > 38)
   (.errorf "decimal precision must be between 1 and 38, got %d" [.int precision])
  rejectIf (scale > precision)
   (.errorf "decimal scale %d exceeds precision %d" [.int scale,.int precision])
  return .decimal "" precision scale
 | some (.uuid _)=>do
  rejectIf (fd.kind≠.string)
   (.errorf "uuid refinement requires a protobuf string carrier, got %s"
    [.str (Kind.text fd.kind)])
  return .uuid ""
 | some (.fixedBytes byteLength _)=>do
  rejectIf (fd.kind≠.bytes)
   (.errorf "fixed_bytes refinement requires a protobuf bytes carrier, got %s"
    [.str (Kind.text fd.kind)])
  rejectIf (byteLength=0) (.errorf "fixed_bytes byte_length must be greater than zero" [])
  rejectIf (byteLength > maxFixedBytesLength)
   (.errorf "fixed_bytes byte_length must not exceed %d, got %d"
    [.int maxFixedBytesLength,.int byteLength])
  return .fixedBytes "" byteLength
 | none=>.error (.errorf "field option must select exactly one semantic type" [])

def compileRefinedValueType (valueType:ValueCompiler) (c:DatasetCompiler)
  (fd:FieldDescriptor) (path:List UInt32) (identity:String) (stack:List String)
  (options:Option FieldOptions) : Result (DataType×DatasetCompiler) :=
 match options with
 | none=>valueType c fd path identity stack
 | some options=>do
  let typ ← refinedType fd options
  return (typ,c)

def syntheticAttributes (name protoFullName:String) (path:List UInt32) (id:ℤ)
  (role:SyntheticRole) : FieldAttributes where
 protoFullName:=protoFullName
 protoNumberPath:=path
 name:=name
 stableId:=id
 presence:=.notApplicable
 nullable:=false
 syntheticRole:=role

def compileSyntheticField (valueType:ValueCompiler) (c:DatasetCompiler)
  (fd:FieldDescriptor) (name protoFullName:String) (path:List UInt32) (identity:String)
  (role:SyntheticRole) (stack:List String) (options:Option FieldOptions) :
  Result (Field×DatasetCompiler):=do
 let (id,c) ← allocate c identity
 let (typ,c) ← compileRefinedValueType valueType c fd path identity stack options
 let field:=DataSchema.Field.mk (syntheticAttributes name protoFullName path id role) typ
 validateEvolution c.toCompilerHistory identity field
 return (field,c)

def listFixedLength (options:Option FieldOptions) : ℕ :=
 ((options.bind FieldOptions.fixedList).map FixedListOptions.length).getD 0

def listElementOptions (options:Option FieldOptions) : Option FieldOptions :=
 if (options.bind FieldOptions.fixedList).isSome then none else options

def compileListType (valueType:ValueCompiler) (c:DatasetCompiler) (md:MessageDescriptor)
  (fd:FieldDescriptor) (path:List UInt32) (identity:String) (stack:List String)
  (options:Option FieldOptions) : Result (DataType×DatasetCompiler):=do
 let (element,c) ← wrap "list element: %w" []
  (compileSyntheticField valueType c fd "element" (fd.fullName md++"[]") path
   (appendIdentity identity "list:element") .listElement stack (listElementOptions options))
 return (.list "" element (listFixedLength options),c)

/-- A map entry without its two fields is no valid descriptor; Go would panic on it. -/
def mapEntryField (entry:Option FieldDescriptor) : Result FieldDescriptor :=
 match entry with
 | some fd=>.ok fd
 | none=>.error (.errorf "nil pointer dereference" [])

def compileMapType (valueType:ValueCompiler) (files:Files) (c:DatasetCompiler)
  (md:MessageDescriptor) (fd:FieldDescriptor) (path:List UInt32) (identity:String)
  (stack:List String) : Result (DataType×DatasetCompiler):=do
 let keyField ← mapEntryField (fd.mapKey files)
 let (key,c) ← wrap "map key: %w" []
  (compileSyntheticField valueType c keyField "key" (fd.fullName md++".key") path
   (appendIdentity identity "map:key") .mapKey stack none)
 let valueField ← mapEntryField (fd.mapValue files)
 let (value,c) ← wrap "map value: %w" []
  (compileSyntheticField valueType c valueField "value" (fd.fullName md++".value") path
   (appendIdentity identity "map:value") .mapValue stack none)
 return (.map "" key value,c)

def protoAttributes (files:Files) (md:MessageDescriptor) (fd:FieldDescriptor)
  (path:List UInt32) (name storageNameSource:String) (id:ℤ) : FieldAttributes where
 protoFullName:=fd.fullName md
 protoNumberPath:=path
 name:=name
 stableId:=id
 presence:=(fieldPresence files fd).1
 nullable:=(fieldPresence files fd).2.1
 oneof:=(fieldPresence files fd).2.2
 description:=descriptorComment fd.comments
 syntheticRole:=.protoField
 hasDefault:=fd.default.isSome
 protobufDefault:=fd.default.getD ""
 jsonName:=fd.jsonName
 storageNameSource:=storageNameSource

def validateFixedList (files:Files) (md:MessageDescriptor) (fd:FieldDescriptor)
  (options:Option FieldOptions) : Result Unit :=
 match options.bind FieldOptions.fixedList with
 | none=>.ok ()
 | some fixedList=>do
  rejectIf (fd.isMap files ∨ ¬fd.isList files)
   (.errorf "field %q: fixed_list refinement requires a non-map repeated field"
    [.str (fd.fullName md)])
  rejectIf ((options.bind FieldOptions.semanticType).isSome)
   (.errorf "field %q: fixed_list cannot be combined with a semantic type refinement"
    [.str (fd.fullName md)])
  rejectIf (fd.kind≠.float ∧ fd.kind≠.double)
   (.errorf "field %q: fixed_list refinement requires a protobuf float or double carrier, got %s"
    [.str (fd.fullName md),.str (Kind.text fd.kind)])
  rejectIf (fixedList.length=0)
   (.errorf "field %q: fixed_list length must be greater than zero" [.str (fd.fullName md)])
  rejectIf (fixedList.length > maxFixedListLength)
   (.errorf "field %q: fixed_list length must not exceed %d, got %d"
    [.str (fd.fullName md),.int maxFixedListLength,.int fixedList.length])

def validateRefinedSingular (files:Files) (md:MessageDescriptor) (fd:FieldDescriptor)
  (options:Option FieldOptions) : Result Unit :=
 if options.isSome ∧ ¬fd.isList files ∧ ¬fd.isMap files then do
  let presence:=(fieldPresence files fd).1
  rejectIf (presence≠.explicit ∧ presence≠.oneof)
   (.errorf "field %q: a refined singular field must have explicit or oneof presence, got %s"
    [.str (fd.fullName md),.str (Presence.text presence)])
  rejectIf fd.default.isSome
   (.errorf "field %q: a refined singular field must not declare a protobuf default"
    [.str (fd.fullName md)])
 else .ok ()

def compileFieldType (valueType:ValueCompiler) (files:Files) (c:DatasetCompiler)
  (md:MessageDescriptor) (fd:FieldDescriptor) (path:List UInt32) (identity:String)
  (stack:List String) (options:Option FieldOptions) : Result (DataType×DatasetCompiler) :=
 if fd.isMap files then compileMapType valueType files c md fd path identity stack
 else if fd.isList files then compileListType valueType c md fd path identity stack options
 else compileRefinedValueType valueType c fd path identity stack options

def compileProtoField (valueType:ValueCompiler) (files:Files) (c:DatasetCompiler)
  (md:MessageDescriptor) (fd:FieldDescriptor) (parentPath:List UInt32)
  (parentIdentity:String) (stack:List String) : Result (Field×DatasetCompiler):=do
 let path:=parentPath++[fd.number.toUInt32]
 let identity:=appendIdentity parentIdentity (fieldIdentitySegment fd.number)
 let context:=[FormatArg.str (fd.fullName md)]
 let (id,c) ← wrap "field %q: %w" context (allocate c identity)
 let (name,source) ← wrap "field %q: %w" context
  (storageFieldName c.toCompilerHistory identity parentIdentity md fd)
 let options ← wrap "field %q: %w" context (dataFieldOptions fd)
 validateFixedList files md fd options
 validateRefinedSingular files md fd options
 rejectIf (fd.isMap files ∧ options.isSome)
  (.errorf "field %q: semantic type refinements are not supported on protobuf maps" context)
 let (typ,c) ← wrap "field %q: %w" context
  (compileFieldType valueType files c md fd path identity stack options)
 let field:=DataSchema.Field.mk (protoAttributes files md fd path name source id) typ
 wrap "field %q: %w" context (validateEvolution c.toCompilerHistory identity field)
 return (field,c)

def compileProtoFields (valueType:ValueCompiler) (files:Files) (md:MessageDescriptor)
  (parentPath:List UInt32) (parentIdentity:String) (stack:List String) :
  DatasetCompiler → List FieldDescriptor → Result (List Field×DatasetCompiler)
 | c,[]=>.ok ([],c)
 | c,fd::rest=>do
  let (field,c) ← compileProtoField valueType files c md fd parentPath parentIdentity stack
  let (fields,c) ← compileProtoFields valueType files md parentPath parentIdentity stack c rest
  return (field::fields,c)

def collisionStep (scope:String) (owners:GoMap String String) (field:Field) :
  Result (GoMap String String):=do
 let a:=field.attributes
 rejectIf (a.name = "")
  (.errorf ("protobuf field %q normalizes to an empty storage name within protobuf " ++
   "message %q") [.str a.protoFullName,.str scope])
 rejectIf (a.name∈owners)
  (.errorf "storage name %q collides within protobuf message %q for fields %q and %q"
   [.str a.name,.str scope,.str ((owners.lookup a.name).getD ""),.str a.protoFullName])
 return owners.insert a.name a.protoFullName

def validateStorageNameCollisions (scope:String) (fields:List Field) : Result Unit:=do
 let _ ← loop (collisionStep scope) ∅ fields
 return ()

def enumType (ed:EnumDescriptor) : DataType :=
 .enum ed.fullName {
  fullName:=ed.fullName
  values:=ed.values.map fun value=>
   { name:=value.name,number:=value.number,description:=descriptorComment value.comments }
  closed:=ed.isClosed }

def enter (c:DatasetCompiler) (identity:String) (md:MessageDescriptor) : DatasetCompiler :=
 { c with currentContainers:=c.currentContainers.insert identity md }

abbrev StructCompiler:=DatasetCompiler → MessageDescriptor → List UInt32 → String →
 List String → Result (DataType×DatasetCompiler)

def compileStruct (valueType:ValueCompiler) (files:Files) : StructCompiler :=
 fun c md path identity stack=>do
  let (children,c) ← compileProtoFields valueType files md path identity
   (md.fullName::stack) c (sortedFields md.fields)
  validateStorageNameCollisions md.fullName children
  return (.struct md.fullName children,c)

def compileMessageValue (struct:StructCompiler) (files:Files) : ValueCompiler :=
 fun c fd path identity stack=>
  match fd.messageType files with
  | none=>.error (.errorf "message descriptor is missing" [])
  | some md=>do
   rejectExtensionRanges md
   match wellKnownType md.fullName with
   | some typ=>.ok (typ,c)
   | none=>do
    let c:=enter c identity md
    rejectIf (md.fullName∈stack)
     (.errorf "recursive protobuf message %q is not a finite row schema" [.str md.fullName])
    struct c md path identity stack

def compileValue (struct:StructCompiler) (files:Files) : ValueCompiler :=
 fun c fd path identity stack=>
  match primitiveKind fd.kind with
  | some primitive=>.ok (.primitive "" primitive,c)
  | none=>match fd.kind with
   | .enum ed=>.ok (enumType ed,c)
   | _=>compileMessageValue struct files c fd path identity stack

def compileValueType (files:Files) : ℕ → ValueCompiler
 | 0=>compileValue (fun _ _ _ _ _=>.error .exhausted) files
 | fuel+1=>compileValue (compileStruct (compileValueType files fuel) files) files

/-- A path without recursion holds each message of the files at most once. -/
def recursionBudget (files:Files) : ℕ:=files.messages.length+1

def reserveTopLevel (md:MessageDescriptor) (c:DatasetCompiler) (fd:FieldDescriptor) :
  Result DatasetCompiler:=do
 let id:=fd.number.toInt
 wrap "field %q: %w" [.str (fd.fullName md)] (validateStableID id)
 let identity:=appendIdentity "" (fieldIdentitySegment fd.number)
 return { c with
  firstTopLevelIDs:=c.firstTopLevelIDs.insert identity id
  reservedIDs:=c.reservedIDs.insert id identity
  lastID:=if id > c.lastID then id else c.lastID }

def retiredRecord (h:CompilerHistory) (identity:String) : RetiredField :=
 let a:=((h.previousFields.lookup identity).getD .nil).attributes
 { identity:=identity
   stableId:=a.stableId
   protoFullName:=a.protoFullName
   name:=a.name
   storageNameSource:=a.storageNameSource }

def retireAbsent (c:DatasetCompiler) : GoMap String RetiredField :=
 c.previousActive.keys.foldl (fun retired identity=>
  if identity∈c.currentActive then retired
  else retired.insert identity (retiredRecord c.toCompilerHistory identity)) c.retired

def retiredBefore (left right:RetiredField) : Prop :=
 left.stableId<right.stableId ∨
  left.stableId=right.stableId ∧ left.identity≤right.identity

instance : DecidableRel retiredBefore:=fun _ _=>
 inferInstanceAs (Decidable (_ ∨ _ ∧ _))

def sortRetired (retired:GoMap String RetiredField) : List RetiredField :=
 (retired.entries.map Sigma.snd).insertionSort retiredBefore

def retiredNumber (identity:String) : ℤ :=
 (parseInt 32 (trimStart "field:" (afterLast '/' identity))).getD 0

def validateRetiredReservation (containers:GoMap String MessageDescriptor)
  (field:RetiredField) : Result Unit:=do
 let identity:=field.identity
 let role ← wrap "retired field %q: %w" [.str identity] (compilerIdentityRole identity)
 if role≠.protoField then .ok ()
 else match containers.lookup (parentCompilerIdentity identity) with
 | none=>.ok ()
 | some container=>do
  let previousName ← wrap "retired field %q: %w" [.str identity]
   (exactProtoFieldName field.protoFullName)
  rejectIf (field.protoFullName≠fullNameAppend container.fullName previousName)
   (.errorf "retired field %q has proto_full_name %q outside current containing message %q"
    [.str identity,.str field.protoFullName,.str container.fullName])
  let number:=retiredNumber identity
  rejectIf (¬container.reservesNumber number)
   (.errorf ("removed protobuf field %q number %d must remain reserved while containing " ++
    "message %q remains reachable")
    [.str field.protoFullName,.int number,.str container.fullName])
  rejectIf (¬container.reservesName previousName)
   (.errorf ("removed protobuf field %q exact name %q must remain reserved while containing " ++
    "message %q remains reachable")
    [.str field.protoFullName,.str previousName,.str container.fullName])
  rejectIf (field.storageNameSource≠previousName ∧
    ¬container.reservesName field.storageNameSource)
   (.errorf ("removed protobuf field %q original storage-name source %q must remain reserved " ++
    "while containing message %q remains reachable")
    [.str field.protoFullName,.str field.storageNameSource,.str container.fullName])

/-- The compiler once the previous schema is indexed and, on a first compilation, the
  top-level numbers are reserved. -/
def startCompiler (md:MessageDescriptor) (previous:Option DatasetSchema) :
  Result DatasetCompiler:=do
 let c ← newDatasetCompiler md previous
 if previous.isNone then loop (reserveTopLevel md) c (sortedFields md.fields) else .ok c

def compileMessage (m:Descriptor) (previous:Option DatasetSchema) : Result DatasetSchema :=
 let md:=m.message
 if md.isMapEntry then
  .error (.errorf "compile message %q: synthetic map entries are not datasets" [.str md.fullName])
 else if storageName md.fullName = "" then
  .error (.errorf "compile message %q: protobuf message name normalizes to an empty storage name"
   [.str md.fullName])
 else wrap "compile message %q: %w" [.str md.fullName] do
  rejectExtensionRanges md
  let c ← startCompiler md previous
  let (compiled,c) ← compileProtoFields (compileValueType m.files (recursionBudget m.files))
   m.files md [] "" [md.fullName] c (sortedFields md.fields)
  validateStorageNameCollisions md.fullName compiled
  let retiredFields:=sortRetired (retireAbsent c)
  loop (fun _=>validateRetiredReservation c.currentContainers) () retiredFields
  return {
   sourceMessage:=md.fullName
   name:=storageName md.fullName
   description:=descriptorComment md.comments
   fields:=compiled
   lastFieldId:=c.lastID
   retiredFields:=retiredFields }
end InvariantProtocol.DataCompiler
