import InvariantProtocol.RendererRules
/-! `data/postgres`: the DDL of a dataset, whose composite values are JSONB columns. The digest in a
shortened identifier is a parameter. -/
namespace InvariantProtocol.PostgresSchema
open GoResult GoText DataSchema DataMapping CompilerState RendererRules
open ClickHouseSchema (joinPath jsonKindText isNilType)

def maxIdentifierBytes : ℕ:=63

structure Column where
 name : String
 description : String
 sqlType : String
 defaultSQL : String
 notNull : Bool
 oneof : String
 fixedBytes : ℕ
 fixedList : ℕ

/-- Strings are valid UTF-8 here. -/
def validateText (value:String) : Result Unit :=
 rejectIf ('\x00' ∈ value.toList) (.errorf "NUL byte is not allowed" [])

def bytesPrefix (limit:ℕ) : List Char → List Char
 | []=>[]
 | c::cs=>if c.utf8Size > limit then [] else c::bytesPrefix (limit-c.utf8Size) cs

/-- `digest` is `hex.EncodeToString(sha256.Sum256(value)[:6])`. -/
def identifier (digest:String → String) (value:String) : Result String:=do
 rejectIf (value = "") (.errorf "empty identifier" [])
 validateText value
 if value.utf8ByteSize ≤ maxIdentifierBytes then return value
 else
  let suffix := "_"++digest value
  return String.ofList (bytesPrefix (maxIdentifierBytes-suffix.utf8ByteSize) value.toList) ++
   suffix

def quoteIdentifier (value:String) : String := "\""++replaceAll value "\"" "\"\""++"\""

def quoteLiteral (value:String) : String := "'"++replaceAll value "'" "''"++"'"

def mapPrimitive : PrimitiveKind → Result (String×MappingCompatibility×Text)
 | .double=>.ok ("DOUBLE PRECISION",.lossless,
   plain "protobuf double maps losslessly to PostgreSQL DOUBLE PRECISION")
 | .float=>.ok ("REAL",.lossless,plain "protobuf float maps losslessly to PostgreSQL REAL")
 | .int64 | .sfixed64 | .sint64=>.ok ("BIGINT",.lossless,
   plain "protobuf signed 64-bit integer maps losslessly to PostgreSQL BIGINT")
 | .uint64 | .fixed64=>.ok ("NUMERIC(20,0)",.rangeWidened,plain ("protobuf unsigned 64-bit " ++
   "integer maps to PostgreSQL NUMERIC(20,0), which contains its full domain"))
 | .int32 | .sfixed32 | .sint32=>.ok ("INTEGER",.lossless,
   plain "protobuf signed 32-bit integer maps losslessly to PostgreSQL INTEGER")
 | .fixed32 | .uint32=>.ok ("BIGINT",.rangeWidened,
   plain "protobuf unsigned 32-bit integer widens to PostgreSQL BIGINT")
 | .bool=>.ok ("BOOLEAN",.lossless,plain "protobuf bool maps losslessly to PostgreSQL BOOLEAN")
 | .string=>.ok ("TEXT",.rangeReduced,
   plain "protobuf string maps to PostgreSQL TEXT, which cannot represent U+0000")
 | .bytes=>.ok ("BYTEA",.lossless,plain "protobuf bytes maps losslessly to PostgreSQL BYTEA")
 | kind=>.error (unsupportedPrimitive kind)

mutual

def canContainNUL : DataType → Bool
 | .primitive _ kind=>kind=.string
 | .struct _ fields=>anyContainsNUL fields
 | .list _ element _=>fieldContainsNUL element
 | .map _ key value=>fieldContainsNUL key || fieldContainsNUL value
 | .json _ _=>true
 | _=>false

def fieldContainsNUL : Field → Bool
 | .nil=>false
 | .mk _ t=>canContainNUL t

def anyContainsNUL : List Field → Bool
 | []=>false
 | field::rest=>fieldContainsNUL field || anyContainsNUL rest
end

/-- A JSONB column, whose range is reduced where a string below it can hold U+0000. -/
def jsonb (t:DataType) (message:String) : String×MappingCompatibility×Text :=
 if canContainNUL t then ("JSONB",.rangeReduced,
  plain (message++"; PostgreSQL JSONB cannot represent the protobuf string value U+0000"))
 else ("JSONB",.representationChanged,plain message)

def mapType : DataType → Result (String×MappingCompatibility×Text)
 | .primitive _ kind=>mapPrimitive kind
 | .enum _ enum=>
  if enum.closed then .ok ("INTEGER",.rangeWidened,plain ("closed protobuf enum numbers map to " ++
   "unconstrained PostgreSQL INTEGER; the column admits undeclared values"))
  else .ok ("INTEGER",.lossless,
   plain "open protobuf enum numbers map losslessly to PostgreSQL INTEGER")
 | .timestamp _ _ _=>.ok ("TIMESTAMPTZ",.precisionReduced,plain ("PostgreSQL TIMESTAMPTZ " ++
   "retains the protobuf Timestamp range and UTC instant semantics but reduces nanoseconds to " ++
   "microseconds"))
 | .duration _ _=>.ok ("BIGINT",.rangeReduced,plain ("PostgreSQL has no exact protobuf " ++
   "Duration type; exact nanoseconds use BIGINT, whose range is narrower than protobuf Duration"))
 | .struct p fields=>
  .ok (jsonb (.struct p fields) "nested protobuf message is stored as one JSONB column")
 | .list p element fixedLength=>
  if fixedLength≠0 then .ok ("JSONB",.rangeWidened,[.errorf ("fixed-cardinality protobuf " ++
   "repeated field is stored as JSONB with an exact top-level array-length check of %d; " ++
   "PostgreSQL does not enforce the protobuf float element domain inside JSONB")
   [.int fixedLength]])
  else .ok (jsonb (.list p element fixedLength)
   "protobuf repeated field is stored as one JSONB array column")
 | .map p key value=>
  .ok (jsonb (.map p key value) "protobuf map is stored as one JSONB object column")
 | .json _ kind=>.ok ("JSONB",.rangeReduced,[.errorf ("protobuf %s is encoded with protobuf " ++
   "JSON semantics in PostgreSQL JSONB, which cannot represent the protobuf string value " ++
   "U+0000; %s") [.str (jsonKindText kind),.str (jsonRangeReduction kind)]])
 | .decimal _ precision scale=>do
  let (precision,scale) ← decimalParameters precision scale
  return ("NUMERIC("++toString precision++","++toString scale++")",.representationChanged,
   [.errorf ("canonical decimal text is decoded into PostgreSQL NUMERIC(%d,%d); precision and " ++
    "scale are preserved but the representation changes") [.int precision,.int scale]])
 | .uuid _=>.ok ("UUID",.representationChanged,
   plain "canonical UUID text is decoded into PostgreSQL UUID")
 | .fixedBytes _ byteLength=>do
  let width ← fixedByteWidth
   "fixed byte length %d exceeds PostgreSQL renderer's maximum of %d" byteLength
  return ("BYTEA",.lossless,[.errorf ("exact-width protobuf bytes map losslessly to PostgreSQL " ++
   "BYTEA with an octet_length check of %d") [.int width]])
 | .nil=>.error (.errorf "unspecified logical type" [])
 | .unset _=>.error (.errorf "unspecified logical type" [])

def implicitDefault : DataType → String
 | .enum _ _=>"0"
 | .primitive _ .bool=>"FALSE"
 | .primitive _ .string=>"''"
 | .primitive _ .bytes=>"'\\x'::bytea"
 | .primitive _ _=>"0"
 | _=>""

def defaultExpression (a:FieldAttributes) (t:DataType) : Result String :=
 match a.presence with
 | .repeated=>match t with
  | .list _ _ fixedLength=>.ok (if fixedLength≠0 then "" else "'[]'::jsonb")
  | _=>.ok "'[]'::jsonb"
 | .map=>.ok "'\x7b\x7d'::jsonb"
 | .implicit=>match t with
  | .decimal _ _ _ | .uuid _ | .fixedBytes _ _=>.error (.errorf ("implicit protobuf presence " ++
    "has no valid default for a refined logical type; use explicit presence") [])
  | t=>.ok (implicitDefault t)
 | _=>.ok ""

def embeddedDiagnostic (t:DataType) (path:String) : MappingDiagnostic :=
 let message := "logical child is embedded in its parent PostgreSQL JSONB column rather than " ++
  "projected as a relational column"
 let fixedLength:=match t with
  | .list _ _ fixedLength=>fixedLength
  | _=>0
 if fixedLength≠0 then ⟨path,.rangeWidened,[.errorf ("fixed-cardinality logical child is " ++
  "embedded in its parent PostgreSQL JSONB column; the nested JSONB representation does not " ++
  "enforce length %d") [.int fixedLength]]⟩
 else if canContainNUL t then ⟨path,.rangeReduced,plain (message ++
  "; PostgreSQL JSONB cannot represent the protobuf string value U+0000")⟩
 else ⟨path,.representationChanged,plain message⟩

mutual

def addEmbedded : Field → String → List MappingDiagnostic
 | .nil,_=>[]
 | .mk _ .nil,_=>[]
 | .mk _ t,path=>embeddedDiagnostic t path::nestedDiagnostics t path

def nestedDiagnostics : DataType → String → List MappingDiagnostic
 | .struct _ fields,path=>addAllEmbedded path fields
 | .list _ element _,path=>addEmbedded element (path++"[]")
 | .map _ key value,path=>addEmbedded key (path++".key")++addEmbedded value (path++".value")
 | _,_=>[]

def addAllEmbedded (path:String) : List Field → List MappingDiagnostic
 | []=>[]
 | child::rest=>
  addEmbedded child (joinPath path child.attributes.name)++addAllEmbedded path rest
end

structure Collected where
 columns : List Column:=[]
 diagnostics : List MappingDiagnostic:=[]
 seenNames : GoMap String String:=∅

def addColumn (digest:String → String) (s:Collected) (field:Field) : Mapping Collected:=do
 let a:=field.attributes
 let t:=field.type
 let failed (format:String) (args:List FormatArg) (err:GoError) : Rejection :=
  ⟨s.diagnostics,.wrapf format args err⟩
 rejectWhen (field.isNil=true ∨ isNilType t=true)
  ⟨s.diagnostics,.errorf "postgres: dataset contains a field without a logical type" []⟩
 let name ← refuse (failed "postgres: field %q: %w" [.str a.protoFullName])
  (identifier digest a.name)
 rejectWhen (name∈s.seenNames)
  ⟨s.diagnostics,.errorf "postgres: fields %q and %q map to the same identifier %q"
   [.str ((s.seenNames.lookup name).getD ""),.str a.name,.str name]⟩
 refuse (failed "postgres: field %q description: %w" [.str a.name]) (validateText a.description)
 let (typeName,compatibility,message) ← refuse (failed "postgres: field %q: %w" [.str a.name])
  (mapType t)
 let defaultSQL ← refuse (failed "postgres: field %q: %w" [.str a.name]) (defaultExpression a t)
 let fixedBytes:=match t with
  | .fixedBytes _ byteLength=>byteLength
  | _=>0
 let fixedList:=match t with
  | .list _ _ fixedLength=>fixedLength
  | _=>0
 return {
  columns:=s.columns ++
   [⟨name,a.description,typeName,defaultSQL,!a.nullable,a.oneof,fixedBytes,fixedList⟩]
  diagnostics:=s.diagnostics ++
   ⟨a.name,compatibility,message⟩::nestedDiagnostics t a.name
  seenNames:=s.seenNames.insert name a.name }

def oneofOrder (columns:List Column) : List String :=
 columns.foldl (fun order col=>
  if col.oneof = "" ∨ col.oneof∈order then order else order++[col.oneof]) []

def oneofCheck (digest:String → String) (tableName:String) (columns:List Column)
  (oneof:String) : Result (List String):=do
 let members:=(columns.filter fun col=>col.oneof=oneof).map Column.name
 if members.length<2 then return []
 else
  let constraint ← wrap "postgres: oneof %q constraint: %w" [.str oneof]
   (identifier digest (tableName++"_"++oneof++"_oneof_check"))
  return ["  CONSTRAINT "++quoteIdentifier constraint++" CHECK (num_nonnulls(" ++
   String.intercalate ", " (members.map quoteIdentifier)++") <= 1)"]

def oneofChecks (digest:String → String) (tableName:String) (columns:List Column) :
  Result (List String):=do
 let checks ← (oneofOrder columns).mapM (oneofCheck digest tableName columns)
 return checks.flatten

def columnDefinition (digest:String → String) (tableName:String) (col:Column) :
  Result String:=do
 let definition := "  "++quoteIdentifier col.name++" "++col.sqlType ++
  (if col.notNull then " NOT NULL" else "") ++
  (if col.defaultSQL≠"" then " DEFAULT "++col.defaultSQL else "")
 let fixedBytes ← if col.fixedBytes > 0 then do
   let constraint ← wrap "postgres: field %q fixed-bytes constraint: %w" [.str col.name]
    (identifier digest (tableName++"_"++col.name++"_fixed_bytes_check"))
   pure (" CONSTRAINT "++quoteIdentifier constraint++" CHECK (octet_length(" ++
    quoteIdentifier col.name++") = "++toString col.fixedBytes++")")
  else pure ""
 let fixedList ← if col.fixedList > 0 then do
   let constraint ← wrap "postgres: field %q fixed-list constraint: %w" [.str col.name]
    (identifier digest (tableName++"_"++col.name++"_fixed_list_check"))
   pure (" CONSTRAINT "++quoteIdentifier constraint++" CHECK (CASE WHEN jsonb_typeof(" ++
    quoteIdentifier col.name++") = 'array' THEN jsonb_array_length(" ++
    quoteIdentifier col.name++") = "++toString col.fixedList++" ELSE FALSE END)")
  else pure ""
 return definition++fixedBytes++fixedList

def tableComment (tableName description:String) : String :=
 if description≠"" then
  "COMMENT ON TABLE "++quoteIdentifier tableName++" IS "++quoteLiteral description++";\n"
 else ""

def columnComment (tableName:String) (col:Column) : String :=
 if col.description≠"" then
  "COMMENT ON COLUMN "++quoteIdentifier tableName++"."++quoteIdentifier col.name++" IS " ++
   quoteLiteral col.description++";\n"
 else ""

def ddl (digest:String → String) (dataset:DatasetSchema) :
  Mapping (String×List MappingDiagnostic):=do
 let tableName ← refuse (fun err=>failing (.wrapf "postgres: dataset name: %w" [] err))
  (identifier digest dataset.name)
 refuse (fun err=>failing (.wrapf "postgres: dataset description: %w" [] err))
  (validateText dataset.description)
 let s ← dataset.fields.foldlM (addColumn digest) {}
 let checks ← refuse (Rejection.mk s.diagnostics) (oneofChecks digest tableName s.columns)
 let definitions ← refuse (Rejection.mk s.diagnostics)
  (s.columns.mapM (columnDefinition digest tableName))
 return ("CREATE TABLE "++quoteIdentifier tableName++" (\n" ++
   String.intercalate ",\n" (definitions++checks)++"\n);\n" ++
   tableComment tableName dataset.description ++
   String.join (s.columns.map (columnComment tableName)),
  s.diagnostics)
end InvariantProtocol.PostgresSchema
