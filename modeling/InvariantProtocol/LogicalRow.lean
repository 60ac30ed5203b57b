import InvariantProtocol.ClickHouseSchema
import InvariantProtocol.SqlEval
namespace InvariantProtocol.LogicalRow
open DataSchema ClickHouseSchema SqlValue SqlEval

inductive Logical where
 | scalar (s:Scalar)
 | list (items:List Logical)
 | map (keys values:List Logical)
 | message (fields:List (Option Logical))

def isComposite : DataType → Bool
 | .struct _ _=>true
 | .list _ _ _=>true
 | .map _ _ _=>true
 | _=>false

/-- A presence tuple: the value that is present, if any. -/
def presentValue (v:Value) : Option (Option Value):=do
 let present ← (v.element "present").bind asBool
 let value ← v.element "value"
 some (if present then some value else none)

def storedValue (a:FieldAttributes) (t:DataType) (v:Value) : Option (Option Value) :=
 match a.presence with
 | .implicit | .repeated | .map | .notApplicable=>some (some v)
 | .explicit=>
  if isComposite t then presentValue v else some (if v=.null then none else some v)
 | .required | .oneof=>presentValue v
 | _=>none

def oneofNames (fields:List Field) : List String :=
 (fields.map fun f=>f.attributes.oneof).filter (· ≠ "")

/-- The number of the first member of a oneof that is present, or 0. -/
def selectedNumber (oneof:String) (fields:List Field) (slots:List (Option Logical)) : ℕ :=
 (((fields.zip slots).find? fun p=>p.1.attributes.oneof=oneof ∧ p.2.isSome).map
  fun p=>(lastNumber p.1).toNat).getD 0

def scopeAgrees (fields:List Field) (slots:List (Option Logical)) (v:Value) : Bool :=
 (fields.isEmpty → v.element unitName=some (truth false)) ∧
  ∀oneof∈oneofNames fields,
   v.element (oneofCaseName oneof)=some (integer (selectedNumber oneof fields slots))

mutual

def decodeField : Field → Value → Option (Option Logical)
 | .nil,_=>none
 | .mk a t,v=>
  match storedValue a t v with
  | none=>none
  | some none=>some none
  | some (some w)=>(decodeType t w).map some

def decodeType : DataType → Value → Option Logical
 | .struct _ fields,v=>do
  let slots ← decodeFields fields v
  if scopeAgrees fields slots v then some (.message slots) else none
 | .list _ element _,.array vs=>do
  let items ← vs.mapM fun v=>(decodeField element v).join
  some (.list items)
 | .map _ key value,.map ks vs=>do
  let keys ← ks.mapM fun v=>(decodeField key v).join
  let values ← vs.mapM fun v=>(decodeField value v).join
  some (.map keys values)
 | .list _ _ _,_=>none
 | .map _ _ _,_=>none
 | _,.scalar s=>some (.scalar s)
 | _,_=>none

def decodeFields : List Field → Value → Option (List (Option Logical))
 | [],_=>some []
 | field::rest,v=>do
  let w ← v.element field.attributes.name
  let slot ← decodeField field w
  let slots ← decodeFields rest v
  some (slot::slots)
end

/-- The logical message of a scope, here of a row of the table. -/
def decodeScope (fields:List Field) (v:Value) : Option Logical:=do
 let slots ← decodeFields fields v
 if scopeAgrees fields slots v then some (.message slots) else none

/-- At most one member of each oneof is present. -/
def OneofsExclusive (fields:List Field) (slots:List (Option Logical)) : Prop :=
 (fields.zip slots).Pairwise fun p q=>
  p.1.attributes.oneof≠"" → p.1.attributes.oneof=q.1.attributes.oneof →
   ¬(p.2.isSome ∧ q.2.isSome)

section
variable (validJSON:List UInt8 → Bool)

mutual

def ValidField : Field → Option Logical → Prop
 | .nil,_=>False
 | .mk a _,none=>a.presence≠.required
 | .mk _ t,some l=>ValidType t l

def ValidType : DataType → Logical → Prop
 | .struct _ fields,.message slots=>ValidFields fields slots ∧ OneofsExclusive fields slots
 | .list _ element fixedLength,.list items=>
  (fixedLength≠0 → items.length=fixedLength) ∧ ∀item∈items,ValidField element (some item)
 | .map _ key value,.map keys values=>
  keys.Nodup ∧ (∀item∈keys,ValidField key (some item)) ∧
   ∀item∈values,ValidField value (some item)
 | .primitive _ .string,.scalar (.bytes bs)=>isUTF8 bs=true
 | .json _ _,.scalar (.bytes bs)=>validJSON bs=true
 | .enum _ enum,.scalar (.int n)=>enum.closed=true → n∈enum.values.map fun v=>v.number
 | .struct _ _,_=>False
 | .list _ _ _,_=>False
 | .map _ _ _,_=>False
 | _,.scalar _=>True
 | _,_=>False

def ValidFields : List Field → List (Option Logical) → Prop
 | [],[]=>True
 | field::rest,slot::slots=>ValidField field slot ∧ ValidFields rest slots
 | _,_=>False
end

/-- The message a row of the table stands for is one the dataset describes. -/
def ValidMessage (fields:List Field) (l:Logical) : Prop :=
 ∃slots,l=.message slots ∧ ValidFields validJSON fields slots ∧ OneofsExclusive fields slots
end

lemma decodeFields_eq_some {fields:List Field} {v:Value} {slots:List (Option Logical)} :
 decodeFields fields v=some slots ↔ List.Forall₂ (fun f slot=>
  ∃w,v.element f.attributes.name=some w ∧ decodeField f w=some slot) fields slots := by
 induction fields generalizing slots with
 | nil=>simp [decodeFields,eq_comm]
 | cons field rest ih=>
  simp only [decodeFields,Option.bind_eq_bind,Option.bind_eq_some_iff,Option.some.injEq,ih,
   List.forall₂_cons_left_iff]
  constructor
  · rintro ⟨w,hw,slot,hsl,slots,hs,rfl⟩
    exact ⟨slot,slots,⟨w,hw,hsl⟩,hs,rfl⟩
  · rintro ⟨slot,slots,⟨w,hw,hsl⟩,hs,rfl⟩
    exact ⟨w,hw,slot,hsl,slots,hs,rfl⟩
end InvariantProtocol.LogicalRow
