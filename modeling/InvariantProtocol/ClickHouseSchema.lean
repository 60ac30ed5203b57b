import InvariantProtocol.DataMapping
import InvariantProtocol.DataCompiler
/-! `data/clickhouse`: the column and CHECK declarations of a dataset, as text. A CHECK is built around a
placeholder that every enclosing node replaces. -/
namespace InvariantProtocol.ClickHouseSchema
open GoResult GoText DataSchema DataMapping CompilerState DataCompiler

def maxFixedStringBytes : ℕ:=256

def reservedNamePrefix : String := "__invariant_"

def constraintValuePlaceholder : String := "\x00invariant-value\x00"

structure Column where
 name : String
 type : String
 defaultExpression : String
 comment : String
 fieldPath : String
 stableID : ℤ
 synthetic : Bool

structure Constraint where
 name : String
 expression : String
 fieldPath : String

structure TableSchema where
 dataset : String
 sourceMessage : String
 description : String
 columns : List Column
 constraints : List Constraint

structure FieldDeclaration where
 name : String
 sqlType : String
 defaultExpression : String := ""
 comment : String := ""
 fieldPath : String
 stableID : ℤ:=0
 synthetic : Bool:=false

structure Validation where
 fieldPath : String
 kind : String
 expression : String

structure MappedType where
 sqlType : String
 compatibility : MappingCompatibility
 message : Text
 diagnostics : List MappingDiagnostic:=[]
 validations : List Validation:=[]
 composite : Bool:=false

structure MappedField where
 sqlType : String
 defaultExpression : String := ""
 validations : List Validation

def joinPath (parent child:String) : String :=
 if parent = "" then child else parent++"."++child

def validateIdentifier (value:String) : Result Unit:=do
 rejectIf (value = "") (.errorf "identifier must not be empty" [])
 rejectIf (value.toList.any isControl) (.errorf "identifier contains a control character" [])

def validateText (value:String) : Result Unit :=
 rejectIf (value.toList.any fun c=>isControl c && !(c = '\n' || c = '\r' || c = '\t'))
  (.errorf "text contains an unsupported control character" [])

def quoteIdentifier (value:String) : String :=
 "`"++replaceRunes [("\\","\\\\"),("`","\\`")] value++"`"

def quoteLiteral (value:String) : String :=
 "'"++replaceRunes
  [("\\","\\\\"),("'","\\'"),("\n","\\n"),("\r","\\r"),("\t","\\t")] value++"'"

def replaceValue (expression replacement:String) : String :=
 replaceAll expression constraintValuePlaceholder replacement

def tupleElementExpression (value name:String) : String :=
 "tupleElement("++value++", "++quoteLiteral name++")"

def scopeElementExpression (name:String) (topLevel:Bool) : String :=
 if topLevel then quoteIdentifier name
 else tupleElementExpression constraintValuePlaceholder name

def oneofCaseName (name:String) : String:=reservedNamePrefix++"oneof_"++name++"_case"

def Validation.replace (replacement:String) (check:Validation) : Validation :=
 { check with expression:=replaceValue check.expression replacement }

structure OneofGroup where
 name : String
 caseName : String
 fieldPath : String
 members : List Field:=[]
 numbers : List UInt32:=[]
 firstIndex : ℕ

/-- The first loop of `mapScope`: every storage name, with the path that uses it. -/
def scopeName (path:String) (topLevel:Bool) (seenNames:GoMap String String) (field:Field) :
  Mapping (GoMap String String):=do
 rejectWhen (field.isNil=true)
  ⟨[unsupportedDiagnostic path (.errorf "logical scope contains a nil field" [])],
   .errorf "clickhouse: logical scope contains a nil field" []⟩
 let name:=field.attributes.name
 let fieldPath:=joinPath path name
 refuse (unsupported fieldPath "clickhouse: field %q: %w" [.str fieldPath]) (validateIdentifier name)
 rejectWhen (startsWith reservedNamePrefix name=true)
  (unsupported fieldPath "clickhouse: field %q: %s" [.str fieldPath]
   (.errorf "storage name %q uses the ClickHouse renderer's reserved %q namespace"
    [.str name,.str reservedNamePrefix]))
 rejectWhen (topLevel=false ∧ name = "null")
  (unsupported fieldPath "clickhouse: field %q: %s" [.str fieldPath]
   (.errorf "ClickHouse reserves the Tuple element name \"null\"" []))
 let previous:=seenNames.lookup name
 rejectWhen (previous.isSome=true)
  (unsupported fieldPath "clickhouse: %s" []
   (.errorf "storage names %q and %q collide as ClickHouse identifier %q"
    [.str (previous.getD ""),.str fieldPath,.str name]))
 return seenNames.insert name fieldPath

/-- The number a oneof member is selected by; 0 stands for none. -/
def lastNumber (field:Field) : UInt32:=field.attributes.protoNumberPath.getLastD 0

/-- The second loop of `mapScope`: the members of every oneof. -/
def collectMember (path:String) (seenNames:GoMap String String)
  (groups:GoMap String OneofGroup) (item:Field×ℕ) : Mapping (GoMap String OneofGroup):=do
 let (field,index):=item
 let a:=field.attributes
 let fieldPath:=joinPath path a.name
 if a.oneof = "" then do
  rejectWhen (a.presence=.oneof)
   (unsupported fieldPath "clickhouse: field %q: %s" [.str fieldPath]
    (.errorf "oneof presence is missing its oneof name" []))
  return groups
 else do
  rejectWhen (a.presence≠.oneof ∨ a.nullable=false)
   (unsupported fieldPath "clickhouse: field %q: %s" [.str fieldPath]
    (.errorf "oneof member must have oneof presence and nullable=true, got %s and nullable=%t"
     [.str (Presence.text a.presence),.str (toString a.nullable)]))
  let group ← match groups.lookup a.oneof with
   | some group=>pure group
   | none=>do
    refuse (fun err=>unsupported fieldPath "clickhouse: field %q: %s" [.str fieldPath]
     (.wrapf "derived oneof discriminator: %w" [] err)) (validateIdentifier (oneofCaseName a.oneof))
    pure { name:=a.oneof,caseName:=oneofCaseName a.oneof,
           fieldPath:=joinPath path a.oneof,firstIndex:=index }
  let previous:=seenNames.lookup group.caseName
  rejectWhen (previous.isSome=true)
   (unsupported group.fieldPath "clickhouse: %s" []
    (.errorf "oneof %q discriminator %q collides with storage field %q"
     [.str group.name,.str group.caseName,.str (previous.getD "")]))
  rejectWhen (lastNumber field=0)
   (unsupported fieldPath "clickhouse: field %q: %s" [.str fieldPath]
    (.errorf "oneof member has no protobuf field number" []))
  rejectWhen (lastNumber field∈group.numbers)
   (unsupported fieldPath "clickhouse: field %q: %s" [.str fieldPath]
    (.errorf "oneof %q repeats protobuf field number %d"
     [.str group.name,.int (lastNumber field).toNat]))
  return groups.insert a.oneof
   { group with members:=group.members++[field],
                numbers:=group.numbers++[lastNumber field] }

def scopeGroups (fields:List Field) (path:String) (topLevel:Bool) :
  Mapping (GoMap String OneofGroup):=do
 let seenNames ← fields.foldlM (scopeName path topLevel) ∅
 fields.zipIdx.foldlM (collectMember path seenNames) ∅

structure ScopeState where
 declarations : List FieldDeclaration:=[]
 validations : List Validation:=[]
 diagnostics : List MappingDiagnostic:=[]
 emittedGroups : List String:=[]

def memberList (members:List Field) : String :=
 String.intercalate ", " (members.map fun member=>
  toString (lastNumber member).toNat++"="++member.attributes.name)

def numberList (numbers:List UInt32) : String :=
 String.intercalate ", " ("0" :: (numbers.insertionSort (· ≤ ·)).map fun number=>
  toString number.toNat)

/-- The discriminator column of a oneof, declared in front of its first member. -/
def emitCase (topLevel:Bool) (group:OneofGroup) (s:ScopeState) : ScopeState :=
 { s with
   emittedGroups:=group.name::s.emittedGroups
   declarations:=s.declarations++[
    { name:=group.caseName,sqlType := "Int32",defaultExpression := "0",
      comment := "Invariant oneof discriminator for "++group.name++": 0=unset, " ++
       memberList group.members,
      fieldPath:=group.fieldPath,synthetic:=true }]
   validations:=s.validations++[
    { fieldPath:=group.fieldPath,kind := "oneof_case",
      expression:=scopeElementExpression group.caseName topLevel ++
       " IN ("++numberList group.numbers++")" }] }

def openField (groups:GoMap String OneofGroup) (topLevel:Bool) (field:Field) (index:ℕ)
  (s:ScopeState) : ScopeState :=
 match groups.lookup field.attributes.oneof with
 | some group=>
  if group.name∉s.emittedGroups ∧ group.firstIndex=index then emitCase topLevel group s else s
 | none=>s

def selectedExpression (group:OneofGroup) (field:Field) (topLevel:Bool) : String :=
 scopeElementExpression group.caseName topLevel++" = "++toString (lastNumber field).toNat

def presenceValidation (group:OneofGroup) (field:Field) (path:String) (topLevel:Bool) :
  Validation where
 fieldPath:=joinPath path field.attributes.name
 kind := "oneof_presence"
 expression := "("++selectedExpression group field topLevel++") = " ++
  tupleElementExpression (scopeElementExpression field.attributes.name topLevel) "present"

def closeField (groups:GoMap String OneofGroup) (path:String) (topLevel:Bool) (field:Field)
  (mapped:MappedField) (diagnostics:List MappingDiagnostic) (s:ScopeState) : ScopeState :=
 let a:=field.attributes
 let presence:=match groups.lookup a.oneof with
  | some group=>[presenceValidation group field path topLevel]
  | none=>[]
 { s with
   declarations:=s.declarations++[
    { name:=a.name,sqlType:=mapped.sqlType,defaultExpression:=mapped.defaultExpression,
      comment:=a.description,fieldPath:=joinPath path a.name,stableID:=a.stableId }]
   validations:=s.validations++presence ++
    mapped.validations.map (Validation.replace (scopeElementExpression a.name topLevel))
   diagnostics:=s.diagnostics++diagnostics }

def mapPrimitive : PrimitiveKind → Result (String×String)
 | .double=>.ok ("Float64","protobuf double maps losslessly to ClickHouse Float64")
 | .float=>.ok ("Float32","protobuf float maps losslessly to ClickHouse Float32")
 | .int64 | .sfixed64 | .sint64=>
  .ok ("Int64","protobuf signed 64-bit integer maps losslessly to ClickHouse Int64")
 | .uint64 | .fixed64=>
  .ok ("UInt64","protobuf unsigned 64-bit integer maps losslessly to ClickHouse UInt64")
 | .int32 | .sfixed32 | .sint32=>
  .ok ("Int32","protobuf signed 32-bit integer maps losslessly to ClickHouse Int32")
 | .fixed32 | .uint32=>
  .ok ("UInt32","protobuf unsigned 32-bit integer maps losslessly to ClickHouse UInt32")
 | .bool=>.ok ("Bool","protobuf bool maps losslessly to ClickHouse Bool")
 | .string=>
  .ok ("String","protobuf UTF-8 string maps to ClickHouse String with a generated UTF-8 CHECK")
 | .bytes=>.ok ("String","protobuf bytes map losslessly to binary-safe ClickHouse String")
 | .unspecified=>
  .error (.errorf "unsupported primitive kind %s" [.str "PRIMITIVE_KIND_UNSPECIFIED"])
 | .unrecognized number=>
  .error (.errorf "unsupported primitive kind %s" [.str (formatInt number)])

def fails (format:String) (args:List FormatArg:=[]) : Rejection:=⟨[],.errorf format args⟩

def callOnValue (function:String) : String:=function++"("++constraintValuePlaceholder++")"

def mapPrimitiveType (kind:PrimitiveKind) (path:String) : Mapping MappedType:=do
 let (sqlType,message) ← refuse (Rejection.mk []) (mapPrimitive kind)
 return {
  sqlType:=sqlType,compatibility:=.lossless,message:=plain message
  validations:=if kind=.string then [⟨path,"utf8",callOnValue "isValidUTF8"⟩] else [] }

def declaredNumbers (values:List EnumValue) : List ℤ :=
 values.foldl (fun numbers value=>
  if value.number∈numbers then numbers else numbers++[value.number]) []

def enumNumberList (values:List EnumValue) : String :=
 String.intercalate ", " (((declaredNumbers values).insertionSort (· ≤ ·)).map formatInt)

def mapEnumType (enum:EnumType) (path:String) : Mapping MappedType:=do
 rejectWhen (enum.values=[]) (fails "enum has no declared values")
 let message := "protobuf enum numeric values map losslessly to ClickHouse Int32; " ++
  "symbols and aliases remain canonical in SchemaBundle"
 if enum.closed then
  return {
   sqlType := "Int32",compatibility:=.lossless
   message:=plain (message++"; a CHECK retains the closed numeric domain")
   validations:=[⟨path,"closed_enum",
    constraintValuePlaceholder++" IN ("++enumNumberList enum.values++")"⟩] }
 else
  return { sqlType := "Int32",compatibility:=.lossless,message:=plain message }

def unitName : String := "__invariant_unit"

def tupleType (fields:List FieldDeclaration) : String :=
 "Tuple("++String.intercalate ", "
  (fields.map fun field=>quoteIdentifier field.name++" "++field.sqlType)++")"

def structType (path:String) (scope:ScopeState) : MappedType :=
 if scope.declarations=[] then
  { sqlType:=tupleType [{ name:=unitName,sqlType := "Bool",fieldPath:=path,synthetic:=true }]
    compatibility:=.representationChanged
    message:=plain ("empty protobuf message uses a constrained synthetic Bool because ClickHouse " ++
     "has no empty Tuple")
    diagnostics:=scope.diagnostics
    validations:=scope.validations++[⟨path,"unit",
     tupleElementExpression constraintValuePlaceholder unitName++" = false"⟩]
    composite:=true }
 else
  { sqlType:=tupleType scope.declarations
    compatibility:=.lossless
    message:=plain "protobuf message maps to a ClickHouse named Tuple"
    diagnostics:=scope.diagnostics
    validations:=scope.validations
    composite:=true }

/-- A check on every element of an array computed from the value. -/
def Validation.onAll (parameter array:String) (check:Validation) : Validation :=
 { check with expression := "arrayAll("++parameter++" -> (" ++
   replaceValue check.expression parameter++"), "++array++")" }

def listType (path:String) (fixedLength:ℕ) (element:MappedField)
  (diagnostics:List MappingDiagnostic) : MappedType where
 sqlType := "Array("++element.sqlType++")"
 compatibility:=.lossless
 message :=
  if fixedLength≠0 then
   [.errorf ("fixed-cardinality protobuf repeated field maps losslessly to ClickHouse Array(T) " ++
    "with an exact length CHECK of %d") [.int fixedLength]]
  else plain "protobuf repeated field maps losslessly to ClickHouse Array(T)"
 diagnostics:=diagnostics
 validations :=
  (if fixedLength≠0 then
   [⟨path,"fixed_list",callOnValue "length"++" = "++toString fixedLength⟩]
  else []) ++
  element.validations.map (Validation.onAll "element" constraintValuePlaceholder)
 composite:=true

def mapKeysExpression : String :=
 "length("++callOnValue "mapKeys"++") = " ++
  "length(arrayDistinct("++callOnValue "mapKeys"++"))"

def mapMapType (path:String) (key value:MappedField) (diagnostics:List MappingDiagnostic) :
  Mapping MappedType:=do
 rejectWhen (startsWith "Nullable(" key.sqlType=true)
  ⟨diagnostics,.errorf "ClickHouse Map keys cannot be nullable" []⟩
 return {
  sqlType := "Map("++key.sqlType++", "++value.sqlType++")"
  compatibility:=.representationChanged
  message:=plain ("protobuf map maps to ClickHouse Map(K, V); a recursive CHECK rejects " ++
   "ClickHouse's otherwise-permitted duplicate keys")
  diagnostics:=diagnostics
  validations:=⟨path,"map_keys",mapKeysExpression⟩ ::
   (key.validations.map (Validation.onAll "key" (callOnValue "mapKeys")) ++
    value.validations.map (Validation.onAll "value" (callOnValue "mapValues")))
  composite:=true }

def mapTimestampType (unit:TimeUnit) (timezone:String) : Mapping MappedType:=do
 rejectWhen (unit≠.nanosecond ∨ timezone≠"UTC") (fails "timestamp must use nanoseconds and UTC")
 return {
  sqlType := "DateTime64(9, 'UTC')",compatibility:=.rangeReduced
  message:=plain ("ClickHouse DateTime64(9, 'UTC') preserves UTC nanoseconds but only covers " ++
   "approximately 1677-09-21 through 2262-04-11, narrower than protobuf Timestamp") }

def mapDurationType (unit:TimeUnit) : Mapping MappedType:=do
 rejectWhen (unit≠.nanosecond) (fails "duration must use nanoseconds")
 return {
  sqlType := "Int64",compatibility:=.rangeReduced
  message:=plain ("ClickHouse has no duration type; exact nanoseconds use Int64, whose range is " ++
   "narrower than protobuf Duration") }

def jsonKindText : JsonKind → String
 | .unspecified=>"JSON_KIND_UNSPECIFIED"
 | .any=>"JSON_KIND_ANY"
 | .struct=>"JSON_KIND_STRUCT"
 | .value=>"JSON_KIND_VALUE"
 | .listValue=>"JSON_KIND_LIST_VALUE"
 | .unrecognized number=>formatInt number

def jsonRangeReduction : JsonKind → String
 | .any=>"standard ProtoJSON requires each populated Any type URL to resolve to a known message " ++
   "descriptor; embedded dynamic numbers must be finite"
 | .struct | .value | .listValue=>"standard ProtoJSON requires dynamic numbers to be finite; " ++
   "NaN and infinities are not representable"
 | _=>"standard ProtoJSON requires an explicitly supported dynamic JSON kind"

def mapJsonType (kind:JsonKind) (path:String) : Mapping MappedType:=do
 rejectWhen (kind=.unspecified) (fails "invalid protobuf JSON logical type")
 return {
  sqlType := "String",compatibility:=.rangeReduced
  message:=[.errorf "protobuf %s is encoded as canonical ProtoJSON text in ClickHouse String; %s"
   [.str (jsonKindText kind),.str (jsonRangeReduction kind)]]
  validations:=[⟨path,"json",callOnValue "isValidJSON"⟩] }

def mapDecimalType (precision scale:ℕ) : Mapping MappedType:=do
 rejectWhen (precision=0 ∨ precision > 38) (fails "decimal precision must be between 1 and 38")
 rejectWhen (scale > precision) (fails "decimal scale must not exceed precision")
 return {
  sqlType := "Decimal("++toString precision++", "++toString scale++")"
  compatibility:=.representationChanged
  message:=[.errorf ("canonical decimal text is decoded into ClickHouse Decimal(%d, %d); " ++
   "precision and scale are preserved") [.int precision,.int scale]] }

def mapUuidType : MappedType where
 sqlType := "UUID"
 compatibility:=.representationChanged
 message:=plain "canonical UUID text is decoded into ClickHouse UUID"

def mapFixedBytesType (byteLength:ℕ) : Mapping MappedType:=do
 rejectWhen (byteLength=0) (fails "fixed byte length must be positive")
 rejectWhen (byteLength > maxFixedStringBytes)
  (fails ("fixed byte length %d exceeds ClickHouse's conventional FixedString limit of %d; larger " ++
   "widths require allow_suspicious_fixed_string_types and are not emitted")
   [.int byteLength,.int maxFixedStringBytes])
 return {
  sqlType := "FixedString("++toString byteLength++")"
  compatibility:=.representationChanged
  message:=[.errorf ("exact-width protobuf bytes map to ClickHouse FixedString(%d); publishers " ++
   "must validate exactly %d bytes before insertion because ClickHouse pads shorter input with " ++
   "NUL bytes") [.int byteLength,.int byteLength]] }

def implicitCapable : DataType → Bool
 | .primitive _ _=>true
 | .enum _ _=>true
 | _=>false

def implicitDefault : DataType → String
 | .enum _ _=>"0"
 | .primitive _ .bool=>"false"
 | .primitive _ .string=>"''"
 | .primitive _ .bytes=>"''"
 | _=>"0"

def preserveStrongerCompatibility : MappingCompatibility → MappingCompatibility
 | .lossless=>.representationChanged
 | compatibility=>compatibility

def presentTuple (sqlType:String) : String := "Tuple(`present` Bool, `value` "++sqlType++")"

def presentExpression : String:=tupleElementExpression constraintValuePlaceholder "present"

def valueExpression : String:=tupleElementExpression constraintValuePlaceholder "value"

/-- A check on the value of a presence tuple, which holds where nothing is present. -/
def Validation.ifPresent (check:Validation) : Validation :=
 { check with expression :=
   "NOT "++presentExpression++" OR ("++replaceValue check.expression valueExpression++")" }

def Validation.ifNotNull (check:Validation) : Validation :=
 { check with expression:=callOnValue "isNull"++" OR (" ++
   replaceValue check.expression (callOnValue "assumeNotNull")++")" }

/-- The switch of `mapField` over the field's presence. -/
def mapPresence (a:FieldAttributes) (t:DataType) (path:String) (mapped:MappedType) :
  Mapping (MappedField×List MappingDiagnostic) :=
 let refused (format:String) : Rejection :=
  unsupported path "clickhouse: field %q: %w" [.str path] (.errorf format []) mapped.diagnostics
 let result (field:MappedField) (compatibility:MappingCompatibility) (message:Text) :
   Mapping (MappedField×List MappingDiagnostic) :=
  .ok (field,⟨path,compatibility,mapped.message++message⟩::mapped.diagnostics)
 match a.presence with
 | .implicit=>do
  rejectWhen (a.nullable=true ∨ implicitCapable t=false)
   (refused "implicit presence requires a non-null primitive or enum")
  result ⟨mapped.sqlType,implicitDefault t,mapped.validations⟩ mapped.compatibility []
 | .explicit=>do
  rejectWhen (a.nullable=false) (refused "explicit presence requires nullable=true")
  if mapped.composite then
   result ⟨presentTuple mapped.sqlType,"",mapped.validations.map Validation.ifPresent⟩
    (preserveStrongerCompatibility mapped.compatibility)
    (plain ("; explicit presence uses Tuple(present Bool, value T) because stable ClickHouse " ++
     "does not support Nullable(Array/Map) and Nullable(Tuple) is beta"))
  else
   result ⟨"Nullable("++mapped.sqlType++")","NULL",mapped.validations.map Validation.ifNotNull⟩
    (preserveStrongerCompatibility mapped.compatibility)
    (plain "; explicit presence maps to Nullable(T), preserving absent versus present-default")
 | .required=>do
  rejectWhen (a.nullable=true) (refused "required presence requires nullable=false")
  result ⟨presentTuple mapped.sqlType,"",
    ⟨path,"required",presentExpression⟩::mapped.validations.map Validation.ifPresent⟩
   (preserveStrongerCompatibility mapped.compatibility)
   (plain ("; required presence uses Tuple(present Bool, value T) plus a CHECK so an omitted " ++
    "ClickHouse column cannot become an implicit type default"))
 | .oneof=>do
  rejectWhen (a.oneof = "" ∨ a.nullable=false)
   (refused "oneof presence requires a oneof name and nullable=true")
  result ⟨presentTuple mapped.sqlType,"",mapped.validations.map Validation.ifPresent⟩
   (preserveStrongerCompatibility mapped.compatibility)
   [.errorf ("; oneof %q uses a member Tuple(present Bool, value T) and sibling discriminator %q " ++
    "(0=unset, protobuf field number=selected member), preserving selected default values " ++
    "without making the synthetic discriminator the sole source of presence")
    [.str a.oneof,.str (oneofCaseName a.oneof)]]
 | .repeated=>do
  let fixedLength:=match t with
   | .list _ _ n=>some n
   | _=>none
  rejectWhen (a.nullable=true ∨ fixedLength=none)
   (refused "repeated presence requires a non-null list")
  result ⟨mapped.sqlType,if fixedLength=some 0 then "[]" else "",mapped.validations⟩
   mapped.compatibility []
 | .map=>do
  let isMap:=match t with
   | .map _ _ _=>true
   | _=>false
  rejectWhen (a.nullable=true ∨ isMap=false) (refused "map presence requires a non-null map")
  result ⟨mapped.sqlType,"map()",mapped.validations⟩ mapped.compatibility []
 | .notApplicable=>do
  rejectWhen (a.syntheticRole=.protoField ∨ a.nullable=true)
   (refused "not-applicable presence is only valid for non-null synthetic collection children")
  result ⟨mapped.sqlType,"",mapped.validations⟩ mapped.compatibility []
 | _=>.error (refused "protobuf presence is unspecified")

def isNilType : DataType → Bool
 | .nil=>true
 | _=>false

def checkField (a:FieldAttributes) (t:DataType) (path:String) : Mapping Unit:=do
 rejectWhen (isNilType t=true)
  (unsupported path "clickhouse: field %q: %s" [.str path] (.errorf "field has no logical type" []))
 refuse (fun err=>unsupported path "clickhouse: field %q %s" [.str path]
  (.wrapf "description: %w" [] err)) (validateText a.description)

def refuseType (path:String) (x:Mapping MappedType) : Mapping MappedType :=
 x.mapError fun r=>unsupported path "clickhouse: field %q: %w" [.str path] r.error r.diagnostics

mutual

def mapField : Field → String → Mapping (MappedField×List MappingDiagnostic)
 | .nil,path=>.error (unsupported path "clickhouse: field %q: %s" [.str path]
   (.errorf "field has no logical type" []))
 | .mk a t,path=>do
  checkField a t path
  let mapped ← refuseType path (mapType t path)
  mapPresence a t path mapped

def mapType : DataType → String → Mapping MappedType
 | .primitive _ kind,path=>mapPrimitiveType kind path
 | .enum _ enum,path=>mapEnumType enum path
 | .struct _ fields,path=>do
  let groups ← scopeGroups fields path false
  let scope ← mapScopeFields groups path false fields 0 {}
  return structType path scope
 | .list _ element fixedLength,path=>do
  rejectWhen (element.isNil=true) (fails "list is missing its element")
  let (mapped,diagnostics) ← mapField element (path++"[]")
  return listType path fixedLength mapped diagnostics
 | .map _ key value,path=>do
  rejectWhen (key.isNil=true ∨ value.isNil=true) (fails "map is missing its key or value")
  let (key,keyDiagnostics) ← mapField key (path++".key")
  let (value,valueDiagnostics) ← precededBy keyDiagnostics (mapField value (path++".value"))
  mapMapType path key value (keyDiagnostics++valueDiagnostics)
 | .timestamp _ unit timezone,_=>mapTimestampType unit timezone
 | .duration _ unit,_=>mapDurationType unit
 | .json _ kind,path=>mapJsonType kind path
 | .decimal _ precision scale,_=>mapDecimalType precision scale
 | .uuid _,_=>.ok mapUuidType
 | .fixedBytes _ byteLength,_=>mapFixedBytesType byteLength
 | .nil,_=>.error (fails "unspecified logical type")
 | .unset _,_=>.error (fails "unspecified logical type")

/-- The third loop of `mapScope`. -/
def mapScopeFields (groups:GoMap String OneofGroup) (path:String) (topLevel:Bool) :
  List Field → ℕ → ScopeState → Mapping ScopeState
 | [],_,s=>.ok s
 | field::rest,index,s=>do
  let s:=openField groups topLevel field index s
  let (mapped,diagnostics) ← precededBy s.diagnostics
   (mapField field (joinPath path field.attributes.name))
  mapScopeFields groups path topLevel rest (index+1)
   (closeField groups path topLevel field mapped diagnostics s)
end

def mapScope (fields:List Field) (path:String) (topLevel:Bool) : Mapping ScopeState:=do
 let groups ← scopeGroups fields path topLevel
 mapScopeFields groups path topLevel fields 0 {}

def constraintName (check:Validation) : String :=
 "invariant."++check.fieldPath++"."++check.kind

def addConstraint (diagnostics:List MappingDiagnostic)
  (s:GoMap String String×List Constraint) (check:Validation) :
  Mapping (GoMap String String×List Constraint):=do
 let name:=constraintName check
 let previous:=s.1.lookup name
 rejectWhen (previous.isSome=true)
  ⟨diagnostics,.errorf "clickhouse: constraints for %q and %q have the same name %q"
   [.str (previous.getD ""),.str check.fieldPath,.str name]⟩
 return (s.1.insert name check.fieldPath,s.2++[⟨name,check.expression,check.fieldPath⟩])

def column (field:FieldDeclaration) : Column :=
 ⟨field.name,field.sqlType,field.defaultExpression,field.comment,field.fieldPath,field.stableID,
  field.synthetic⟩

/-- An empty dataset gets a constant column, as an empty message gets a constant element. -/
def tableScope (scope:ScopeState) : ScopeState :=
 if scope.declarations=[] then
  { scope with
    declarations:=[{ name:=unitName,sqlType := "Bool",defaultExpression := "false",
                       fieldPath := "<dataset>",synthetic:=true }]
    validations:=scope.validations ++
     [⟨"<dataset>","unit",quoteIdentifier unitName++" = false"⟩] }
 else scope

def schema (dataset:DatasetSchema) : Mapping (TableSchema×List MappingDiagnostic):=do
 refuse (fun err=>⟨[],.wrapf "clickhouse: dataset name: %w" [] err⟩)
  (validateIdentifier dataset.name)
 refuse (fun err=>⟨[],.wrapf "clickhouse: dataset description: %w" [] err⟩)
  (validateText dataset.description)
 let scope ← mapScope dataset.fields "" true
 let table:=tableScope scope
 let (_,constraints) ← table.validations.foldlM (addConstraint scope.diagnostics) (∅,[])
 return (⟨dataset.name,dataset.sourceMessage,dataset.description,
  table.declarations.map column,constraints⟩,scope.diagnostics)
end InvariantProtocol.ClickHouseSchema
