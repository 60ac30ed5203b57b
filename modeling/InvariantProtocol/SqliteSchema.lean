import InvariantProtocol.RendererRules
/-! `data/sqlite`: the DDL of a dataset. -/
namespace InvariantProtocol.SqliteSchema
open GoResult GoText DataSchema DataMapping RendererRules
open ClickHouseSchema (isNilType)

/-- Strings are valid UTF-8 here. -/
def validText (value:String) : Result Unit :=
 rejectIf ('\x00' ∈ value.toList) (.errorf "text must be valid UTF-8 without NUL" [])

def asciiLower (value:String) : String :=
 String.ofList (value.toList.map fun c=>
  if 'A' ≤ c ∧ c ≤ 'Z' then Char.ofNat (c.toNat+32) else c)

def quote (value:String) : String := "\""++replaceAll value "\"" "\"\""++"\""

def comment (value indent:String) : String :=
 if value = "" then ""
 else
  indent++"-- "++replaceAll (replaceAll value "\r" "\n") "\n" ("\n"++indent++"-- ")++"\n"

def unsignedText (value:String) : String :=
 "length("++value++") > 0 AND instr("++value++", char(0)) = 0 AND "++value ++
  " NOT GLOB '*[^0-9]*' AND ("++value++" = '0' OR substr("++value ++
  ", 1, 1) BETWEEN '1' AND '9')"

structure Mapped where
 typeName : String
 check : String
 compatibility : MappingCompatibility
 message : String

def invalidType : GoError:=.errorf "unsupported or invalid logical type" []

def isStorageClass (name storageClass:String) : String :=
 "typeof("++name++") = '"++storageClass++"'"

def uint64Check (name:String) : String :=
 isStorageClass name "text"++" AND "++unsignedText name++" AND (length("++name ++
  ") < 20 OR (length("++name++") = 20 AND "++name ++
  " <= '18446744073709551615' COLLATE BINARY))"

def primitiveMapping (kind:PrimitiveKind) (name:String) : Result Mapped :=
 let integer:=isStorageClass name "integer"
 match kind with
 | .double | .float=>.ok ⟨"REAL",isStorageClass name "real",.rangeReduced,
   "SQLite REAL stores binary64 values; NaN becomes NULL and cannot preserve a present protobuf " ++
   "NaN; float32 writers must enforce their source precision"⟩
 | .int64 | .sint64 | .sfixed64=>.ok ⟨"INTEGER",integer,.lossless,
   "signed 64-bit integer with a SQLite storage-class check"⟩
 | .int32 | .sint32 | .sfixed32=>.ok ⟨"INTEGER",
   integer++" AND "++name++" BETWEEN -2147483648 AND 2147483647",.lossless,
   "signed 32-bit integer with exact range checks"⟩
 | .uint32 | .fixed32=>.ok ⟨"INTEGER",integer++" AND "++name++" BETWEEN 0 AND 4294967295",
   .lossless,"unsigned 32-bit integer with exact range checks"⟩
 | .uint64 | .fixed64=>.ok ⟨"TEXT",uint64Check name,.representationChanged,
   "uint64 uses canonical decimal TEXT with exact bounds; bind text without an intermediate " ++
   "REAL or signed integer; lexical order is not numeric order"⟩
 | .bool=>.ok ⟨"INTEGER",integer++" AND "++name++" IN (0, 1)",.representationChanged,
   "boolean represented by INTEGER 0 or 1"⟩
 | .string=>.ok ⟨"TEXT",isStorageClass name "text",.lossless,
   "protobuf string stored as TEXT, including embedded U+0000"⟩
 | .bytes=>.ok ⟨"BLOB",isStorageClass name "blob",.lossless,"protobuf bytes stored as BLOB"⟩
 | _=>.error invalidType

def enumMapping (enum:EnumType) (name:String) : Result Mapped:=do
 rejectIf (enum.values=[]) invalidType
 let range:=isStorageClass name "integer"++" AND "++name ++
  " BETWEEN -2147483648 AND 2147483647"
 let declared := " AND "++name++" IN (" ++
  String.intercalate ", " (enum.values.map fun value=>formatInt value.number)++")"
 return ⟨"INTEGER",if enum.closed then range++declared else range,.lossless,
  "enum numbers retain their signed 32-bit domain; closed enums also check declared values"⟩

def magnitude (name:String) : String :=
 "(CASE WHEN substr("++name++", 1, 1) = '-' THEN substr("++name++", 2) ELSE "++name ++
  " END)"

def decimalCheck (precision scale:ℕ) (name:String) : String :=
 let magnitude:=magnitude name
 let whole:=if scale > 0 then "substr("++magnitude++", 1, length("++magnitude++") - " ++
   toString (scale+1)++")" else magnitude
 let fraction := "substr("++magnitude++", -"++toString scale++")"
 let fractionCheck:=if scale > 0 then " AND substr("++magnitude++", -" ++
   toString (scale+1)++", 1) = '.' AND length("++fraction++") = "++toString scale ++
   " AND "++fraction++" NOT GLOB '*[^0-9]*'" else ""
 let zero:=if scale > 0 then "0."++String.ofList (List.replicate scale '0') else "0"
 isStorageClass name "text"++" AND instr("++name++", char(0)) = 0"++fractionCheck ++
  " AND "++unsignedText whole ++
  (if precision=scale then " AND "++whole++" = '0'"
   else " AND length("++whole++") <= "++toString (precision-scale)) ++
  " AND "++name++" != '-"++zero++"'"

def uuidCheck (name:String) : String :=
 isStorageClass name "text"++" AND length("++name++") = 36 AND instr("++name ++
  ", char(0)) = 0 AND substr("++name++", 9, 1) = '-' AND substr("++name ++
  ", 14, 1) = '-' AND substr("++name++", 19, 1) = '-' AND substr("++name ++
  ", 24, 1) = '-' AND length(replace("++name++", '-', '')) = 32 AND replace("++name ++
  ", '-', '') NOT GLOB '*[^0-9a-f]*'"

/-- A value kept as ProtoJSON text; `shape` is the JSON type of its top level, if it is fixed. -/
def jsonMapping (shape:Option String) (fixed:ℕ) (name:String) : Mapped :=
 let valid:=match shape with
  | some shape=>"json_type("++name++") = '"++shape++"'"
  | none=>"1"
 let valid:=if fixed > 0 then
   valid++" AND json_array_length("++name++") = "++toString fixed else valid
 ⟨"TEXT",isStorageClass name "text"++" AND instr("++name ++
   ", char(0)) = 0 AND CASE WHEN json_valid("++name++") THEN "++valid++" ELSE 0 END",
  .rangeWidened,
  "ProtoJSON TEXT checks JSON syntax, top-level shape and any top-level fixed length; nested " ++
  "types, presence, refinements and Any resolution remain writer-owned; dynamic JSON numbers " ++
  "must be finite"⟩

def mapping (t:DataType) (name:String) : Result Mapped :=
 let integer:=isStorageClass name "integer"
 match t with
 | .primitive _ kind=>primitiveMapping kind name
 | .enum _ enum=>enumMapping enum name
 | .timestamp _ unit timezone=>do
  rejectIf (unit≠.nanosecond ∨ timezone≠"UTC") invalidType
  return ⟨"INTEGER",integer++" AND "++name ++
    " BETWEEN -62135596800000000 AND 253402300799999999",.precisionReduced,
   "Timestamp uses signed Unix microseconds with the complete protobuf year range; " ++
   "sub-microsecond precision requires explicit writer conversion"⟩
 | .duration _ unit=>do
  rejectIf (unit≠.nanosecond) invalidType
  return ⟨"INTEGER",integer,.rangeReduced,
   "Duration uses exact signed nanoseconds; SQLite int64 cannot represent the complete protobuf " ++
   "Duration range"⟩
 | .decimal _ precision scale=>do
  rejectIf (precision=0 ∨ precision > 38 ∨ scale > precision) invalidType
  return ⟨"TEXT",decimalCheck precision scale name,.lossless,
   "canonical fixed-scale decimal text with exact precision, scale, sign and zero checks; bind " ++
   "text, arithmetic is application-owned"⟩
 | .uuid _=>.ok ⟨"TEXT",uuidCheck name,.lossless,
   "canonical lowercase UUID text with exact hexadecimal and hyphen checks"⟩
 | .fixedBytes _ width=>do
  rejectIf (width=0 ∨ width > maxInt32) invalidType
  return ⟨"BLOB",isStorageClass name "blob"++" AND length("++name++") = "++toString width,
   .lossless,"fixed-width bytes with a BLOB length check"⟩
 | .struct _ _=>.ok (jsonMapping (some "object") 0 name)
 | .list _ _ fixed=>do
  rejectIf (fixed > maxInt32) (.errorf "invalid list type" [])
  return jsonMapping (some "array") fixed name
 | .map _ _ _=>.ok (jsonMapping (some "object") 0 name)
 | .json _ kind=>match kind with
  | .value=>.ok (jsonMapping none 0 name)
  | .listValue=>.ok (jsonMapping (some "array") 0 name)
  | .any | .struct=>.ok (jsonMapping (some "object") 0 name)
  | _=>.error (.errorf "unsupported dynamic JSON kind" [])
 | .nil=>.error invalidType
 | .unset _=>.error invalidType

def defaultExpression (a:FieldAttributes) (t:DataType) : Result String :=
 match a.presence with
 | .repeated=>match t with
  | .list _ _ fixedLength=>.ok (if fixedLength=0 then "'[]'" else "")
  | _=>.ok "'[]'"
 | .map=>.ok "'\x7b\x7d'"
 | .implicit=>match t with
  | .enum _ _=>.ok "0"
  | .primitive _ .string=>.ok "''"
  | .primitive _ .bytes=>.ok "X''"
  | .primitive _ .uint64=>.ok "'0'"
  | .primitive _ .fixed64=>.ok "'0'"
  | .primitive _ _=>.ok "0"
  | _=>.error (.errorf "implicit refined or composite field has no protobuf default" [])
 | _=>.ok ""

def nestedDiagnostic (path:String) : MappingDiagnostic :=
 ⟨path,.rangeWidened,plain ("nested ProtoJSON value: SQLite does not enforce this node's " ++
  "logical domain, presence or refinements; writer validation is required")⟩

mutual

/-- One turn of the loop of `nestedDiagnostics`, for a child and its path. -/
def nestedField (path:String) : Field → Result (List MappingDiagnostic)
 | .nil=>.error (.errorf "sqlite: field %q: missing nested logical type" [.str path])
 | .mk a t=>do
  rejectIf (isNilType t=true)
   (.errorf "sqlite: field %q: missing nested logical type" [.str path])
  let _ ← wrap "sqlite: field %q: %w" [.str path] (mapping t (quote a.name))
  let nested ← nestedDiagnostics t path
  return nestedDiagnostic path::nested

def nestedDiagnostics : DataType → String → Result (List MappingDiagnostic)
 | .struct _ fields,path=>nestedFields path fields
 | .list _ element _,path=>nestedField (path++"[]") element
 | .map _ key value,path=>do
  let keyDiagnostics ← nestedField (path++".key") key
  let valueDiagnostics ← nestedField (path++".value") value
  return keyDiagnostics++valueDiagnostics
 | _,_=>.ok []

def nestedFields (path:String) : List Field → Result (List MappingDiagnostic)
 | []=>.ok []
 | child::rest=>do
  let diagnostics ← nestedField (path++"."++child.attributes.name) child
  let others ← nestedFields path rest
  return diagnostics++others
end

structure Collected where
 definitions : List String:=[]
 diagnostics : List MappingDiagnostic:=[]
 seen : List String:=[]
 oneofs : List (String×List String):=[]

def addOneof (group member:String) : List (String×List String) → List (String×List String)
 | []=>[(group,[member])]
 | (name,members)::rest=>
  if name=group then (name,members++[member])::rest
  else (name,members)::addOneof group member rest

def addColumn (s:Collected) (field:Field) : Mapping Collected:=do
 let a:=field.attributes
 let t:=field.type
 let failed (format:String) (args:List FormatArg) (err:GoError) : Rejection :=
  ⟨s.diagnostics,.wrapf format args err⟩
 rejectWhen (field.isNil=true ∨ isNilType t=true ∨ a.name = "")
  ⟨s.diagnostics,.errorf "sqlite: field requires a name and logical type" []⟩
 refuse (failed "sqlite: field name: %w" []) (validText a.name)
 refuse (failed "sqlite: field description: %w" []) (validText a.description)
 let folded:=asciiLower a.name
 rejectWhen (folded∈s.seen)
  ⟨s.diagnostics,.errorf "sqlite: case-insensitive column collision %q" [.str a.name]⟩
 let name:=quote a.name
 let mapped ← refuse (failed "sqlite: field %q: %w" [.str a.name]) (mapping t name)
 let defaultSQL ← refuse (failed "sqlite: field %q: %w" [.str a.name]) (defaultExpression a t)
 let definition:=comment a.description "  "++"  "++name++" "++mapped.typeName ++
  (if a.nullable then "" else " NOT NULL") ++
  (if defaultSQL≠"" then " DEFAULT "++defaultSQL else "") ++
  " CHECK ("++name++" IS NULL OR ("++mapped.check++"))"
 let diagnostics:=s.diagnostics++[⟨a.name,mapped.compatibility,plain mapped.message⟩]
 let nested ← refuse (Rejection.mk diagnostics) (nestedDiagnostics t a.name)
 return {
  definitions:=s.definitions++[definition]
  diagnostics:=diagnostics++nested
  seen:=folded::s.seen
  oneofs:=if a.oneof = "" then s.oneofs
   else addOneof a.oneof ("("++name++" IS NOT NULL)") s.oneofs }

def ddl (dataset:DatasetSchema) : Mapping (String×List MappingDiagnostic):=do
 rejectWhen (dataset.fields=[])
  (failing (.errorf "sqlite: a dataset with at least one field is required" []))
 rejectWhen ('\x00' ∈ dataset.name.toList ∨ dataset.name = "" ∨
   startsWith "sqlite_" (asciiLower dataset.name)=true)
  (failing (.errorf "sqlite: invalid or reserved table name" []))
 refuse (fun err=>failing (.wrapf "sqlite: table description: %w" [] err))
  (validText dataset.description)
 let s ← dataset.fields.foldlM addColumn {}
 let oneofChecks:=s.oneofs.map fun group=>
  "  CHECK (("++String.intercalate " + " group.2++") <= 1)"
 return (comment dataset.description ""++"CREATE TABLE "++quote dataset.name++" (\n" ++
   String.intercalate ",\n" (s.definitions++oneofChecks)++"\n);\n",
  s.diagnostics)
end InvariantProtocol.SqliteSchema
