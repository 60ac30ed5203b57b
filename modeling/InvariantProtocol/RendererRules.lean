import InvariantProtocol.ClickHouseSchema
/-! Rules that several target packages repeat word for word. -/
namespace InvariantProtocol.RendererRules
open GoResult GoText DataSchema DataMapping

def maxInt32 : ℕ:=2^31-1

/-- The text of Arrow, Parquet, Iceberg and PostgreSQL; the one of ClickHouse is shorter. -/
def jsonRangeReduction : JsonKind → String
 | .any=>"standard protobuf JSON requires each populated Any type URL to resolve to a known " ++
   "message descriptor; embedded Struct, Value, and ListValue numbers must also be finite"
 | .struct | .value | .listValue=>"standard protobuf JSON requires Struct, Value, and ListValue " ++
   "numbers to be finite; NaN and infinities are not representable"
 | _=>"standard protobuf JSON requires an explicitly supported dynamic JSON kind"

def decimalParameters (precision scale:ℕ) : Result (ℕ×ℕ):=do
 rejectIf (precision=0 ∨ precision > 38) (.errorf "decimal precision must be between 1 and 38" [])
 rejectIf (scale > precision) (.errorf "decimal scale must not exceed precision" [])
 return (precision,scale)

/-- `exceeds` is the text for a width over the target's maximum. -/
def fixedByteWidth (exceeds:String) (byteLength:ℕ) : Result ℕ:=do
 rejectIf (byteLength=0) (.errorf "fixed byte length must be positive" [])
 rejectIf (byteLength > maxInt32) (.errorf exceeds [.int byteLength,.int maxInt32])
 return byteLength

def unmappedKindText : PrimitiveKind → String
 | .unrecognized number=>formatInt number
 | _=>"PRIMITIVE_KIND_UNSPECIFIED"

def unsupportedPrimitive (kind:PrimitiveKind) : GoError :=
 .errorf "unsupported primitive kind %s" [.str (unmappedKindText kind)]

/-- `strings.ToLower(strings.TrimPrefix(kind.String(), "PRIMITIVE_KIND_"))`. -/
def primitiveName : PrimitiveKind → String
 | .unspecified=>"unspecified"
 | .double=>"double"
 | .float=>"float"
 | .int64=>"int64"
 | .uint64=>"uint64"
 | .int32=>"int32"
 | .fixed64=>"fixed64"
 | .fixed32=>"fixed32"
 | .bool=>"bool"
 | .string=>"string"
 | .bytes=>"bytes"
 | .uint32=>"uint32"
 | .sfixed32=>"sfixed32"
 | .sfixed64=>"sfixed64"
 | .sint32=>"sint32"
 | .sint64=>"sint64"
 | .unrecognized number=>formatInt number

/-- A target that does not enforce oneofs says so, and is not lossless there. -/
def noteOneof (note oneof:String) (diagnostic:MappingDiagnostic) : MappingDiagnostic :=
 if oneof = "" then diagnostic
 else { diagnostic with
  message:=diagnostic.message++[.errorf note [.str oneof]]
  compatibility :=
   if diagnostic.compatibility=.lossless then .rangeWidened else diagnostic.compatibility }

@[simp] lemma noteOneof_fieldPath (note oneof:String) (diagnostic:MappingDiagnostic) :
 (noteOneof note oneof diagnostic).fieldPath=diagnostic.fieldPath := by
 unfold noteOneof
 split <;> rfl

/-- A caller that returns what it has collected in place of what the failed call returned. -/
def havingCollected {α:Type} (diagnostics:List MappingDiagnostic) (x:Mapping α) : Mapping α :=
 x.mapError fun r=>{ r with diagnostics:=diagnostics }

@[simp] lemma havingCollected_ok {α:Type} (diagnostics:List MappingDiagnostic) (x:Mapping α)
 (a:α) : havingCollected diagnostics x=.ok a ↔ x=.ok a :=
 GoResult.mapError_ok _ x a

/-- A loop that maps fields one by one and stops at the first error: what it returns is what the
  calls return, in order. -/
theorem collect_ok {E A D:Type} {call:Field → Except E (A×List D)}
 {collect:List A → List D → List Field → Except E (List A×List D)} (hnil:∀xs ds,collect xs ds []=.ok (xs,ds))
 (hc:∀xs ds f rest out,collect xs ds (f::rest)=.ok out ↔
  ∃m,call f=.ok m ∧ collect (xs++[m.1]) (ds++m.2) rest=.ok out)
 (fields:List Field) (xs:List A) (ds:List D) (out:List A×List D) : collect xs ds fields=.ok out ↔
  ∃ms,List.Forall₂ (fun f m=>call f=.ok m) fields ms ∧
   out=(xs++ms.map Prod.fst,ds++ms.flatMap Prod.snd) := by
 induction fields generalizing xs ds with
 | nil=>simp [hnil,eq_comm]
 | cons f rest ih=>
  simp only [hc,ih]
  constructor
  · rintro ⟨m,hm,ms,hms,rfl⟩
    exact ⟨m::ms,.cons hm hms,by simp⟩
  · rintro ⟨ms,hms,rfl⟩
    cases hms with
    | cons hm hms=>exact ⟨_,hm,_,hms,by simp⟩

def failing (error:GoError) : Rejection:=⟨[],error⟩
end InvariantProtocol.RendererRules
