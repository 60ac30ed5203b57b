import InvariantProtocol.ArrowSchema
/-! `data/parquet`: the Arrow schema with Parquet's replacements, and the diagnostics of a separate
walk. `pqarrow.ToParquet` is a parameter. -/
namespace InvariantProtocol.ParquetSchema
open GoResult DataSchema DataMapping RendererRules ArrowSchema
open ClickHouseSchema (joinPath jsonKindText)

def listBridge (path:String) (fixedLength:ℕ) : ArrowType → Result ArrowField
 | .list element=>do
  rejectIf (fixedLength≠0)
   (.errorf "parquet: field %q lost its fixed-cardinality Arrow bridge" [.str path])
  return element
 | .fixedSizeList length element=>do
  rejectIf (fixedLength=0 ∨ length≠fixedLength)
   (.errorf "parquet: field %q has an inconsistent fixed-cardinality Arrow bridge" [.str path])
  return element
 | _=>.error (.errorf "parquet: field %q has an invalid Arrow list bridge" [.str path])

mutual

def compatibleArrowField : ArrowField → Field → String → Result ArrowField
 | _,.nil,path=>.error (.errorf "parquet: field %q has no logical type" [.str path])
 | _,.mk _ .nil,path=>.error (.errorf "parquet: field %q has no logical type" [.str path])
 | .mk name _ nullable metadata,.mk _ (.duration _ _),_=>.ok (.mk name .int64 nullable metadata)
 | .mk name type nullable metadata,.mk _ (.struct _ fields),path=>
  match type with
  | .struct children=>do
   rejectIf (children.length≠fields.length)
    (.errorf "parquet: field %q has an invalid Arrow struct bridge" [.str path])
   let children ← compatibleArrowFields path children fields
   return .mk name (.struct children) nullable metadata
  | _=>.error (.errorf "parquet: field %q has an invalid Arrow struct bridge" [.str path])
 | .mk name type nullable metadata,.mk _ (.list _ logical fixedLength),path=>do
  let element ← listBridge path fixedLength type
  let element ← compatibleArrowField element logical (path++"[]")
  return .mk name (if fixedLength=0 then .list element else .fixedSizeList fixedLength element)
   nullable metadata
 | .mk name type nullable metadata,.mk _ (.map _ logicalKey logicalValue),path=>
  match type with
  | .map key value=>do
   let key ← compatibleArrowField key logicalKey (path++".key")
   let value ← compatibleArrowField value logicalValue (path++".value")
   return .mk name (.map key.nonNull value) nullable metadata
  | _=>.error (.errorf "parquet: field %q has an invalid Arrow map bridge" [.str path])
 | field,.mk _ _,_=>.ok field

def compatibleArrowFields (path:String) : List ArrowField → List Field → Result (List ArrowField)
 | field::rest,logical::logicalRest=>do
  let mapped ← compatibleArrowField field logical (joinPath path logical.attributes.name)
  let mappedRest ← compatibleArrowFields path rest logicalRest
  return mapped::mappedRest
 | _,_=>.ok []
end

def compatibleArrowSchema (schema:Schema) (dataset:DatasetSchema) : Result Schema:=do
 rejectIf (schema.fields.length≠dataset.fields.length)
  (.errorf "parquet: Arrow bridge field count does not match dataset" [])
 let fields ← compatibleArrowFields "" schema.fields dataset.fields
 return ⟨fields,schema.metadata⟩

def typeDiagnostic : DataType → MappingCompatibility×Text
 | .struct _ _=>(.lossless,plain "protobuf message maps to a Parquet group")
 | .list _ _ fixedLength=>
  if fixedLength=0 then
   (.lossless,plain "protobuf repeated field maps to Parquet's canonical LIST shape")
  else (.rangeWidened,[.errorf ("Arrow validates fixed cardinality %d before writing, but " ++
   "Parquet's physical LIST shape does not enforce element count; generic Parquet writers and " ++
   "readers must retain SchemaBundle validation") [.int fixedLength]])
 | .map _ _ _=>(.lossless,plain "protobuf map maps to Parquet's canonical MAP shape")
 | .timestamp _ _ _=>(.rangeReduced,plain ("Parquet TIMESTAMP(NANOS, adjustedToUTC=true) " ++
   "preserves nanosecond precision but its int64 range is narrower than protobuf Timestamp"))
 | .duration _ _=>(.rangeReduced,plain ("Parquet has no duration logical type; exact " ++
   "nanoseconds use INT64, whose range is narrower than protobuf Duration"))
 | .json _ kind=>(.rangeReduced,[.errorf ("protobuf %s is encoded as RFC 8259 text with " ++
   "Parquet's JSON logical annotation; %s")
   [.str (jsonKindText kind),.str (jsonRangeReduction kind)]])
 | .decimal _ precision scale=>(.representationChanged,[.errorf ("canonical decimal text is " ++
   "decoded into Parquet DECIMAL(%d, %d); precision and scale are preserved but the physical " ++
   "representation changes") [.int precision,.int scale]])
 | .uuid _=>(.representationChanged,plain ("canonical UUID text is decoded into Parquet's UUID " ++
   "logical type over FIXED_LEN_BYTE_ARRAY(16)"))
 | .fixedBytes _ byteLength=>(.lossless,[.errorf ("exact-width protobuf bytes map losslessly " ++
   "to Parquet FIXED_LEN_BYTE_ARRAY(%d)") [.int byteLength]])
 | .enum _ enum=>
  if enum.closed then (.rangeWidened,plain ("closed protobuf enum numbers map to unconstrained " ++
   "Parquet INT32; the physical type admits undeclared values"))
  else (.lossless,plain "open protobuf enum numbers map losslessly to Parquet INT32")
 | _=>(.lossless,plain ("protobuf value domain maps losslessly to a Parquet logical or " ++
   "physical type"))

def nodeDiagnostic (a:FieldAttributes) (t:DataType) (path:String) : MappingDiagnostic :=
 noteOneof "; Parquet does not enforce mutual exclusivity for oneof %q" a.oneof
  ⟨path,(typeDiagnostic t).1,(typeDiagnostic t).2⟩

mutual

def fieldDiagnostics : Field → String → List MappingDiagnostic
 | .nil,_=>[]
 | .mk _ .nil,_=>[]
 | .mk a t,path=>nodeDiagnostic a t path::typeDiagnostics t path

def typeDiagnostics : DataType → String → List MappingDiagnostic
 | .struct _ fields,path=>childDiagnostics path fields
 | .list _ element _,path=>fieldDiagnostics element (path++"[]")
 | .map _ key value,path=>
  fieldDiagnostics key (path++".key")++fieldDiagnostics value (path++".value")
 | _,_=>[]

def childDiagnostics (path:String) : List Field → List MappingDiagnostic
 | []=>[]
 | child::rest=>
  fieldDiagnostics child (joinPath path child.attributes.name)++childDiagnostics path rest
end

def diagnostics (dataset:DatasetSchema) : List MappingDiagnostic :=
 dataset.fields.flatMap fun field=>fieldDiagnostics field field.attributes.name

def schema {P:Type} (toParquet:String → Schema → Result P) (dataset:DatasetSchema) :
  Mapping (P×List MappingDiagnostic):=do
 let (arrow,_) ← (ArrowSchema.schema dataset).mapError fun r=>
  failing (.wrapf "parquet: build Arrow bridge schema: %w" [] r.error)
 let compatible ← refuse failing (compatibleArrowSchema arrow dataset)
 let mapped ← refuse (fun err=>failing (.wrapf "parquet: map dataset %q: %w"
  [.str dataset.sourceMessage] err)) (toParquet dataset.name compatible)
 return (mapped,diagnostics dataset)
end InvariantProtocol.ParquetSchema
