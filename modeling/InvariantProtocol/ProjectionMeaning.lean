import InvariantProtocol.ProjectionPlan
import InvariantProtocol.ClickHouseConstraints
namespace InvariantProtocol.ProjectionMeaning
open List ListRelations GoResult DataSchema DataMapping ProtoDescriptor DataCompiler
open SqlType SqlValue SqlExpr SqlEval LogicalRow StoredShape ClickHouseLayout StoredScope RowMeaning
open Discriminator SlotShape ClickHouseConstraints IcebergProjection ProjectionPlan
open ClickHouseSchema (oneofCaseName lastNumber TableSchema)
open IcebergSchema (IcebergType NestedField)

variable {children:List FieldProjection} {fields:List Field} {path:String}

section
variable (validJSON:List UInt8 → Bool)
/-- The placeholders of an expression: the current value, and the discriminator beside it. -/
def bindings (v:Value) (selector:Option Value) : Env :=
 ("\x7bvalue\x7d",v)::(selector.map fun s=>("\x7bcase\x7d",s)).toList

/-- Reads a node out of its stored value and its discriminator. -/
abbrev Reader:=Value → Option Value → Option (Option Logical)

/-- The children of a message are read out of the elements they name. -/
def readMembers : List (NodeProjection×Reader) → Value → Option (List (Option Logical))
 | [],_=>some []
 | (node,read)::rest,v=>do
  let w ← v.element node.name
  let selector:=if node.discriminator = "" then none else v.element node.discriminator
  let slot ← read w selector
  let slots ← readMembers rest v
  some (slot::slots)

def readItems (read:Reader) (vs:List Value) : Option (List Logical) :=
 vs.mapM fun v=>(read v none).join

def readValue (children:List (NodeProjection×Reader)) (v:Value) : Option Logical :=
 match v,children with
 | .tuple _ _,children=>(readMembers children v).map .message
 | .array vs,[element]=>(readItems element.2 vs).map .list
 | .map ks vs,[key,value]=>do
  let keys ← readItems key.2 ks
  let values ← readItems value.2 vs
  some (.map keys values)
 | .scalar s,[]=>some (.scalar s)
 | _,_=>none

/-- The value expression is evaluated only where the presence expression is true. -/
def readPresent (node:NodeProjection) (read:Value → Option Logical) : Reader :=
 fun v selector=>do
  let present ← (evalText validJSON (bindings v selector) node.presenceExpression).bind asBool
  if present then do
   let w ← evalText validJSON (bindings v selector) node.valueExpression
   (read w).map some
  else some none

mutual

def readNode : FieldProjection → Reader
 | .mk node children=>readPresent validJSON node (readValue (readers children))

def readers : List FieldProjection → List (NodeProjection×Reader)
 | []=>[]
 | child::rest=>(child.node,readNode child)::readers rest
end

def readRow (plan:Projection) (row:Value) : Option Logical :=
 (readMembers (readers validJSON plan.fields) row).map .message
end

/-- Unsigned 64-bit integers are published as decimals without a fraction, times as counts of
  nanoseconds. -/
def publishScalar (t:DataType) (s:Scalar) : Scalar :=
 match t,s with
 | .primitive _ .uint64,.int n=>.decimal n 0
 | .primitive _ .fixed64,.int n=>.decimal n 0
 | .timestamp _ _ _,.time ticks=>.int ticks
 | _,s=>s

mutual

def publishField : Field → Logical → Logical
 | .nil,l=>l
 | .mk _ t,l=>publishType t l

def publishType : DataType → Logical → Logical
 | .struct _ fields,.message slots=>.message (publishFields fields slots)
 | .list _ element _,.list items=>.list (items.map fun item=>publishField element item)
 | .map _ key value,.map keys values=>
  .map (keys.map fun item=>publishField key item) (values.map fun item=>publishField value item)
 | t,.scalar s=>.scalar (publishScalar t s)
 | _,l=>l

def publishFields : List Field → List (Option Logical) → List (Option Logical)
 | field::rest,slot::slots=>slot.map (fun l=>publishField field l)::publishFields rest slots
 | _,_=>[]
end

def publishMessage (fields:List Field) : Logical → Logical
 | .message slots=>.message (publishFields fields slots)
 | l=>l

section
variable {validJSON:List UInt8 → Bool} {a:FieldAttributes} {t:DataType} {v:Value}
 {selector:Option Value}
lemma lookup_value (v:Value) (selector:Option Value) :
 eval validJSON (bindings v selector) valueHole=some v := rfl

variable {o:Option Value} {w:Value}
lemma presentValue_eq_some (h:presentValue v=some o) :
 ∃b w,v.element "present" = some (truth b) ∧ v.element "value" = some w ∧
  o=if b then some w else none := by
 simp only [presentValue,Option.bind_eq_bind,Option.bind_eq_some_iff,Option.some.injEq] at h
 obtain ⟨b,⟨u,hu,hb⟩,w,hw,rfl⟩:=h
 have ht:u=truth b:=by
  cases u with
  | scalar s=>cases s <;> simp_all [asBool,truth]
  | _=>simp [asBool] at hb
 exact ⟨b,w,ht ▸ hu,hw,rfl⟩

lemma eval_present {b:Bool} (h:v.element "present" = some (truth b)) :
 eval validJSON (bindings v selector) presentElement=some (truth b) := by
 simpa [presentElement,eval,lookup_value] using h

lemma eval_value (h:v.element "value" = some w) :
 eval validJSON (bindings v selector) valueElement=some w := by
 simpa [valueElement,eval,lookup_value] using h

lemma valueHole_wellFormed : valueHole.WellFormed := by
 have hw:SqlText.isWord "value" = true:=by decide
 exact hw

lemma presenceExpr_wellFormed (a:FieldAttributes) (t:DataType) : (presenceExpr a t).WellFormed := by
 have hc:SqlText.isWord "case" = true:=by decide
 unfold presenceExpr
 split
 · split <;> exact valueHole_wellFormed
 · exact valueHole_wellFormed
 · exact ⟨valueHole_wellFormed,⟨hc,trivial,rfl,rfl⟩,Nat.zero_le _,Nat.le_succ 1⟩
 · trivial

lemma valueExpr_wellFormed (a:FieldAttributes) (t:DataType) :
 (conversionExpr t (storedExpr a t)).WellFormed := by
 have hs:(storedExpr a t).WellFormed:=by
  unfold storedExpr
  split
  · split <;> exact valueHole_wellFormed
  all_goals exact valueHole_wellFormed
 cases t with
 | primitive p kind=>cases kind <;> exact hs
 | _=>exact hs

lemma eval_selected (v:Value) (n:ℤ) :
 ((eval validJSON (bindings v (some (integer n))) (.eq (.hole "case") (.int n))).bind fun w=>
  (asBool w).map truth)=some (truth true) := by
 have heq:equals (integer n) (integer n)=some (truth true):=by
  simp [equals,integer,truth]
 have hev:eval validJSON (bindings v (some (integer n))) (.eq (.hole "case") (.int n)) =
   equals (integer n) (integer n):=rfl
 rw [hev,heq]
 rfl

/-- The presence expression is true exactly where a value is stored. A discriminator is consulted
  only then. -/
theorem eval_presenceExpr (hs:storedValue a t v=some o) (hsl:a.presence=.oneof → o.isSome=true →
  selector=some (integer (a.protoNumberPath.getLastD 0).toNat)) :
 eval validJSON (bindings v selector) (presenceExpr a t)=some (truth o.isSome) := by
 have ht:presentValue v=some o →
   eval validJSON (bindings v selector) presentElement=some (truth o.isSome):=by
  intro h
  obtain ⟨b,w,hb,hw,rfl⟩:=presentValue_eq_some h
  rw [eval_present hb]
  cases b <;> rfl
 unfold storedValue at hs
 unfold presenceExpr
 cases hp : a.presence <;> simp only [hp] at hs ⊢
 case explicit=>
  by_cases hc : isComposite t=true
  · rw [if_pos hc] at hs ⊢
    exact ht hs
  · rw [if_neg hc] at hs ⊢
    obtain rfl:=Option.some.inj hs
    by_cases hn : v=.null <;> simp [eval,lookup_value,applyFunction,hn]
 case required=>exact ht hs
 case oneof=>
  have hpr:=ht hs
  cases o with
  | none=>simp [eval,hpr,asBool_truth]
  | some w=>
   rw [eval,hpr,hsl hp rfl]
   exact @eval_selected validJSON v _
 all_goals cases hs
 all_goals rfl

lemma eval_storedExpr (hs:storedValue a t v=some (some w)) :
 eval validJSON (bindings v selector) (storedExpr a t)=some w := by
 have ht:presentValue v=some (some w) →
   eval validJSON (bindings v selector) valueElement=some w:=by
  intro h
  obtain ⟨b,u,hb,hu,heq⟩:=presentValue_eq_some h
  rw [eval_value hu]
  cases b with
  | true=>exact heq.symm
  | false=>cases heq
 unfold storedValue at hs
 unfold storedExpr
 cases hp : a.presence <;> simp only [hp] at hs ⊢
 case explicit=>
  by_cases hc : isComposite t=true
  · rw [if_pos hc] at hs ⊢
    exact ht hs
  · rw [if_neg hc] at hs ⊢
    by_cases hn : v=.null
    · simp [hn] at hs
    · rw [if_neg hn] at hs
      obtain rfl:=Option.some.inj (Option.some.inj hs)
      cases v with
      | null=>exact absurd rfl hn
      | _=>rfl
 case required=>exact ht hs
 case oneof=>exact ht hs
 all_goals cases hs
 all_goals rfl

def converted (t:DataType) : Value → Value
 | .scalar s=>.scalar (publishScalar t s)
 | v=>v

lemma cast_uint64 {n:ℤ} (h:baseAdmits .uint64 (.int n)=true) :
 castAccurately "Decimal(20, 0)" (integer n)=some (.scalar (.decimal n 0)) := by
 have ht:parseType "Decimal(20, 0)" = some (.decimal 20 0):=
  parseType_render (.decimal 20 0) trivial
 have hr:n.natAbs<10^20:=by
  simp only [baseAdmits,inRange,Bool.and_eq_true,decide_eq_true_eq] at h
  omega
 simp only [castAccurately,ht,integer,Int.pow_zero,Int.mul_one,hr,if_true]

lemma toInt64_uint32 {n:ℤ} (h:baseAdmits .uint32 (.int n)=true) :
 applyFunction validJSON .toInt64 (integer n)=some (integer n) := by
 have hr:Int.bmod n (2^64)=n:=by
  simp only [baseAdmits,inRange,Bool.and_eq_true,decide_eq_true_eq] at h
  rw [Int.bmod_eq_of_le] <;> omega
 simp only [applyFunction,integer,hr]

lemma admits_integer {b:BaseType} (hb:b=.uint64 ∨ b=.uint32) (h:admits (.base b) w=true) :
 ∃n,w=integer n ∧ baseAdmits b (.int n)=true := by
 obtain ⟨s,rfl,hs⟩:=admits_base.1 h
 cases s with
 | int n=>exact ⟨n,rfl,hs⟩
 | _=>rcases hb with rfl | rfl <;> simp [baseAdmits] at hs

lemma eval_conversionExpr {env:Env} {e:Expr} (ha:admits (typeColumn t) w=true)
 (he:eval validJSON env e=some w) : eval validJSON env (conversionExpr t e)=some (converted t w) := by
 have hs:∀w,(∀s,w=.scalar s → publishScalar t s=s) → converted t w=w:=by
  intro w hw
  cases w with
  | scalar s=>rw [converted,hw s rfl]
  | _=>rfl
 have hc:eval validJSON env (.accurateCast e "Decimal(20, 0)") =
   castAccurately "Decimal(20, 0)" w:=by
  rw [eval,he]
  rfl
 have hap:∀f,eval validJSON env (.apply f e)=applyFunction validJSON f w:=by
  intro f
  rw [eval,he]
  rfl
 cases t with
 | primitive p kind=>
  cases kind with
  | uint64=>
   obtain ⟨n,rfl,hn⟩:=admits_integer (.inl rfl) ha
   exact hc.trans (cast_uint64 hn)
  | fixed64=>
   obtain ⟨n,rfl,hn⟩:=admits_integer (.inl rfl) ha
   exact hc.trans (cast_uint64 hn)
  | uint32=>
   obtain ⟨n,rfl,hn⟩:=admits_integer (.inr rfl) ha
   exact (hap _).trans (toInt64_uint32 hn)
  | fixed32=>
   obtain ⟨n,rfl,hn⟩:=admits_integer (.inr rfl) ha
   exact (hap _).trans (toInt64_uint32 hn)
  | _=>
   rw [hs w fun s _=>rfl]
   exact he
 | timestamp p unit timezone=>
  cases w with
  | scalar s=>
   cases s with
   | time ticks=>exact hap _
   | _=>simp [typeColumn,admits] at ha
  | _=>simp [typeColumn,admits] at ha
 | _=>
  rw [hs w fun s _=>rfl]
  exact he

lemma readPresent_planned {node:NodeProjection} {read:Value → Option Logical}
 (hnode:NodePlanned a t path node) (hs:storedValue a t v=some o)
 (ha:∀w,o=some w → admits (typeColumn t) w=true)
 (hsl:a.presence=.oneof → o.isSome=true →
  selector=some (integer (a.protoNumberPath.getLastD 0).toNat)) :
 readPresent validJSON node read v selector =
  match o with
  | none=>some none
  | some w=>(read (converted t w)).map some := by
 have hp:evalText validJSON (bindings v selector) node.presenceExpression =
   some (truth o.isSome):=by
  rw [hnode.presence,evalText_render _ _ _ (presenceExpr_wellFormed a t),eval_presenceExpr hs hsl]
 cases o with
 | none=>simp [readPresent,hp,asBool_truth]
 | some w=>
  have hvalue:evalText validJSON (bindings v selector) node.valueExpression =
    some (converted t w):=by
   rw [hnode.value,evalText_render _ _ _ (valueExpr_wellFormed a t)]
   exact eval_conversionExpr (ha w rfl) (eval_storedExpr hs)
  simp [readPresent,hp,hvalue,asBool_truth]

lemma admits_stored {column:ColumnType} (hv:admits (presenceColumn a t column) v=true)
 (h:storedValue a t v=some (some w)) : admits column w=true := by
 have ht:admits (presenceTuple column) v=true → presentValue v=some (some w) →
   admits column w=true:=by
  intro hv h
  obtain ⟨b,u,hb,hu,ha⟩:=admits_presenceTuple hv
  rw [presentValue_eq hb hu] at h
  cases b with
  | true=>exact Option.some.inj (Option.some.inj h) ▸ ha
  | false=>simp at h
 unfold presenceColumn at hv
 unfold storedValue at h
 cases hp : a.presence <;> simp only [hp] at hv h
 case explicit=>
  by_cases hc : isComposite t=true
  · rw [if_pos hc] at hv h
    exact ht hv h
  · rw [if_neg hc] at hv h
    by_cases hn : v=.null
    · simp [hn] at h
    · rw [if_neg hn] at h
      exact Option.some.inj (Option.some.inj h) ▸ (admits_nullable.1 hv).resolve_left hn
 case required=>exact ht hv h
 case oneof=>exact ht hv h
 all_goals
  cases h
  try exact hv
end

section
variable {validJSON:List UInt8 → Bool}
/-- Wherever the field stores a valid value, its node reads the published form of it. -/
def Reads (validJSON:List UInt8 → Bool) (field:Field) : Prop :=
 ∀path plan,Planned field path plan → ∀v slot selector,
  admits (fieldColumn field) v=true → decodeField field v=some slot →
  ValidField validJSON field slot →
  (field.attributes.presence=.oneof → slot.isSome=true →
   selector=some (integer (lastNumber field).toNat)) →
  readNode validJSON plan v selector=some (slot.map (publishField field))

variable {plan:FieldProjection}
lemma readItems_planned {field:Field} (h:Reads validJSON field)
 (hp:field.attributes.presence=.notApplicable)
 (hpl:Planned field path plan) {vs:List Value} {items:List Logical}
 (ha:∀v∈vs,admits (fieldColumn field) v=true)
 (hi:vs.mapM (fun v=>(decodeField field v).join)=some items)
 (hvl:∀item∈items,ValidField validJSON field (some item)) :
 readItems (readNode validJSON plan) vs=some (items.map (publishField field)) := by
 have hd:=mapM_eq_some.1 hi
 clear hi
 refine mapM_eq_some.2 ?_
 induction hd with
 | nil=>exact .nil
 | @cons v item vs items hit _ ih=>
  obtain ⟨hv,hvs⟩:=forall_mem_cons.1 ha
  obtain ⟨hf,hr⟩:=forall_mem_cons.1 hvl
  refine .cons ?_ (ih hvs hr)
  have hdc:decodeField field v=some (some item):=Option.join_eq_some_iff.1 hit
  rw [h path plan hpl v (some item) none hv hdc hf fun ho=>by
   rw [hp] at ho
   cases ho]
  rfl

variable {slots:List (Option Logical)} {v:Value}
lemma selected_of_present (ha:scopeAgrees fields slots v=true)
 (hex:OneofsExclusive fields slots) {p:Field×Option Logical} (hp:p∈fields.zip slots)
 (ho:p.1.attributes.oneof≠"") (hs:p.2.isSome=true) :
 v.element (oneofCaseName p.1.attributes.oneof)=some (integer (lastNumber p.1).toNat) := by
 have hm:p∈members fields slots:=mem_filter.2 ⟨hp,by simpa using ho⟩
 have hnm:p.1.attributes.oneof∈oneofNames fields:=by
  refine mem_filter.2 ⟨?_,by simpa using ho⟩
  exact mem_map.2 ⟨p.1,(of_mem_zip hp).1,rfl⟩
 simp only [scopeAgrees,decide_eq_true_eq] at ha
 rw [ha.2 _ hnm,selectedNumber_eq ho]
 rcases selected_cases memberOneof memberNumber memberPresent p.1.attributes.oneof
  (members fields slots) with ⟨-,hab⟩|⟨q,hq,hg,hpr,hn⟩
 · have hpr:=hab p hm rfl
   rw [memberPresent,hs] at hpr
   cases hpr
 · obtain rfl:=(oneofsExclusive_iff.1 hex).eq hq hm hg hpr hs
   rw [hn]
   rfl

lemma oneofCaseName_ne_empty (oneof:String) : oneofCaseName oneof≠"" := by
 intro hem
 have hr:=oneofCaseName_reserved oneof
 rw [hem] at hr
 revert hr
 decide

lemma planned_element {field:Field} (h:Planned field path plan) : plan.node.name=field.attributes.name ∧
  plan.node.discriminator=if field.attributes.presence=.oneof then
   oneofCaseName field.attributes.oneof else "" := by
 cases field with
 | nil=>exact h.elim
 | mk a t=>
  obtain ⟨node,children⟩:=plan
  exact ⟨h.1.name,h.1.discriminator⟩

lemma readMembers_planned (hr:∀f∈fields,Reads validJSON f)
 (hp:PlannedMembers path fields children)
 (hsl:decodeFields fields v=some slots) (hv:ValidFields validJSON fields slots)
 (ha:∀f∈fields,∃w,v.element f.attributes.name=some w ∧
  admits (fieldColumn f) w=true)
 (hs:∀p∈fields.zip slots,p.1.attributes.presence=.oneof → p.2.isSome=true →
  v.element (oneofCaseName p.1.attributes.oneof)=some (integer (lastNumber p.1).toNat)) :
 readMembers (readers validJSON children) v=some (publishFields fields slots) := by
 induction fields generalizing children slots with
 | nil=>
  obtain rfl : children=[]:=hp
  obtain rfl : []=slots:=Option.some.inj hsl
  rfl
 | cons field rest ih=>
  obtain ⟨child,others,rfl,hc,ho⟩:=hp
  simp only [decodeFields,Option.bind_eq_bind,Option.bind_eq_some_iff,Option.some.injEq]
   at hsl
  obtain ⟨w,hw,slot,hst,slots,hsl,rfl⟩:=hsl
  obtain ⟨hf,hrs⟩:=forall_mem_cons.1 hr
  obtain ⟨⟨w',hw',how⟩,ha⟩:=forall_mem_cons.1 ha
  rw [hw] at hw'
  obtain rfl:=Option.some.inj hw'
  rw [zip_cons_cons] at hs
  obtain ⟨hsc,hs⟩:=forall_mem_cons.1 hs
  have ht:=ih hrs ho hsl hv.2 ha hs
  obtain ⟨hn,hd⟩:=planned_element hc
  have hrd:=hf _ _ hc w slot
   (if child.node.discriminator = "" then none else v.element child.node.discriminator) how
   hst hv.1 fun hon hsm=>by
    rw [hd,if_pos hon,if_neg (oneofCaseName_ne_empty _)]
    exact hsc hon hsm
  rw [readers,readMembers,hn]
  simp [hw,hrd,ht,publishFields]

lemma readScope_planned (hok:ScopeOk fields) (hr:∀f∈fields,Reads validJSON f)
 (hpl:PlannedMembers path fields children) (hv:admits (tupleOf (tableColumns fields)) v=true)
 (hs:decodeFields fields v=some slots) (ha:scopeAgrees fields slots v=true)
 (hvl:ValidFields validJSON fields slots) (hex:OneofsExclusive fields slots) :
 readMembers (readers validJSON children) v=some (publishFields fields slots) := by
 refine readMembers_planned hr hpl hs hvl
  (fun f hf=>field_element hok hv hf) fun p hp hpr hsm=>?_
 have ho:p.1.attributes.oneof≠"" :=
  fun ho=>hok.single p.1 (of_mem_zip hp).1 ho hpr
 exact selected_of_present ha hex hp ho hsm

/-- The nodes below a node read the value it stores. -/
theorem readValue_planned {t:DataType}
 (hr:∀f∈t.children,MappableField f → ItemsField f → Reads validJSON f) (ht:MappableType t)
 (hi:ItemsType t) (hp:PlannedBelow t path children)
 {w:Value} (hw:admits (typeColumn t) w=true) {l:Logical} (hl:decodeType t w=some l)
 (hvl:ValidType validJSON t l) :
 readValue (readers validJSON children) (converted t w)=some (publishType t l) := by
 cases t with
 | struct p fields=>
  obtain ⟨hok,hfl⟩:=ht
  have hfl:=mappableFields_iff.1 hfl
  have hi:=itemsFields_iff.1 hi
  obtain ⟨slots,hs,ha,rfl⟩:=decodeScope_eq_some.1 hl
  have hrd:=readScope_planned hok
   (fun f hf=>hr f hf (hfl f hf) (hi f hf)) hp hw hs ha hvl.1
   hvl.2
  obtain ⟨vs,rfl,-⟩:=admits_tuple.1 hw
  simp [converted,readValue,hrd,publishType]
 | list p element n=>
  obtain ⟨child,rfl,hc⟩:=hp
  obtain ⟨vs,rfl,hvs⟩:=admits_array.1 hw
  simp only [decodeType,Option.bind_eq_bind,Option.bind_eq_some_iff,Option.some.injEq] at hl
  obtain ⟨items,hd,rfl⟩:=hl
  have hrd:=readItems_planned (hr element mem_cons_self ht hi.2) hi.1
   hc hvs hd hvl.2
  simp [converted,readValue,readers,hrd,publishType]
 | map p key value=>
  obtain ⟨k,v,rfl,hk,hv⟩:=hp
  obtain ⟨ks,vs,rfl,-,hks,hvs⟩:=admits_map.1 hw
  simp only [decodeType,Option.bind_eq_bind,Option.bind_eq_some_iff,Option.some.injEq] at hl
  obtain ⟨keys,hky,values,hva,rfl⟩:=hl
  have hrk:=readItems_planned
   (hr key mem_cons_self ht.1 hi.1.2.2) hi.1.1 hk hks hky hvl.2.1
  have hrv:=readItems_planned
   (hr value (mem_cons_of_mem _ mem_cons_self) ht.2 hi.2.2) hi.2.1 hv
   hvs hva hvl.2.2
  simp [converted,readValue,readers,hrk,hrv,publishType]
 | nil=>exact ht.elim
 | unset p=>exact ht.elim
 | _=>
  obtain rfl : children=[]:=hp
  obtain ⟨s,rfl,rfl⟩:=decode_scalar rfl hl
  rfl

lemma reads_field (field:Field) : MappableField field → ItemsField field →
 Reads validJSON field := by
 induction field using Field.tree_induction with
 | hnil=>exact fun h=>h.elim
 | hmk a t ih=>
  rintro ⟨-,ht⟩ hi path ⟨node,children⟩ ⟨hnode,hb⟩ v slot selector hv hst hvl
   hsl
  rw [readNode]
  cases hs : storedValue a t v with
  | none=>simp [decodeField,hs] at hst
  | some o=>
   cases o with
   | none=>
    obtain rfl : none=slot:=by simpa [decodeField,hs] using hst
    rw [readPresent_planned hnode hs (by simp) (by simp)]
    rfl
   | some w=>
    have hw:=admits_stored hv hs
    obtain ⟨l,hl,rfl⟩ : ∃l,decodeType t w=some l ∧ some l=slot:=by
     simpa [decodeField,hs] using hst
    rw [readPresent_planned hnode hs (by rintro _ ⟨⟩;exact hw)
     (fun ho _=>hsl ho rfl)]
    simp [readValue_planned ih ht hi hb hw hl hvl,publishField]
end

lemma readRow_planned {validJSON:List UInt8 → Bool} (hok:ScopeOk fields)
 (hm:MappableFields fields) (hi:ItemsFields fields) {plan:Projection}
 (hp:PlannedMembers "" fields plan.fields) {v:Value}
 (hv:admits (tupleOf (tableColumns fields)) v=true) {l:Logical}
 (hl:decodeScope fields v=some l) (hvl:ValidMessage validJSON fields l) :
 readRow validJSON plan v=some (publishMessage fields l) := by
 obtain ⟨slots,hs,ha,rfl⟩:=decodeScope_eq_some.1 hl
 obtain ⟨_,heq,hvl,hex⟩:=hvl
 cases heq
 have hr:∀f∈fields,Reads validJSON f:=fun f hf=>
  reads_field f (mappableFields_iff.1 hm f hf) (itemsFields_iff.1 hi f hf)
 rw [readRow,readScope_planned hok hr hp hv hs ha hvl hex]
 rfl

/-- Where a compiled dataset has both schemas it has a plan, whose nodes are the logical nodes, and
  which reads every row that passes the constraints as the message the row stands for. -/
theorem projection_reads_rows {m:Descriptor} {previous:Option DatasetSchema} {d:DatasetSchema}
  {table:TableSchema} {fields:List NestedField}
  {clickHouseDiagnostics icebergDiagnostics:List MappingDiagnostic} (hm:DescriptorValid m)
  (hc:compileMessage m previous=.ok d) (hs:ClickHouseSchema.schema d=.ok (table,clickHouseDiagnostics))
  (hi:IcebergSchema.schema d=.ok (fields,icebergDiagnostics)) (typeText:IcebergType → String)
  {findFieldByID:List NestedField → ℤ → Option IcebergType}
  (hfind:∀schema,Finds (findFieldByID schema) (fieldsIndex schema))
  (validJSON:List UInt8 → Bool) : ∃plan,projectToIceberg typeText findFieldByID d =
    .ok (plan,clickHouseDiagnostics++icebergDiagnostics) ∧
   allNodes plan.fields=datasetNodes d ∧
   ∃types,columnTypes table=some types ∧ ∀row,admitsAll types row=true →
    (∀c∈table.constraints,Satisfies validJSON (rowEnv table row) c.expression) →
    ∃l,decodeScope d.fields (rowValue table row)=some l ∧
     readRow validJSON plan (rowValue table row)=some (publishMessage d.fields l) := by
 have hw:=schema_written hs
 have hit:=compiled_items hm hc
 obtain ⟨plan,hpl,hp⟩:=projectToIceberg_planned typeText hfind hit hs hi
 refine ⟨plan,hpl,plannedMembers_nodes (fun f _=>planned_nodes f) hp,_,
  columnTypes_eq hw,fun row hr hst=>?_⟩
 obtain ⟨l,hl,hv⟩:=(satisfied_iff_decodes hm hc hw validJSON hr).1 hst
 exact ⟨l,hl,readRow_planned hw.scope hw.mappable hit hp
  (admits_rowValue hw hr) hl hv⟩

@[irreducible] def paymentIceberg : List NestedField×List MappingDiagnostic :=
 value (IcebergSchema.schema paymentDataset) (by decide +kernel)

lemma paymentIceberg_eq : IcebergSchema.schema paymentDataset=.ok paymentIceberg := by
 rw [paymentIceberg]
 exact eq_ok_value _ _

theorem payment_read_back : ∃plan diagnostics,projectToIceberg (fun _=>"")
   (fun schema id=>(fieldsIndex schema).lookup id) paymentDataset=.ok (plan,diagnostics) ∧
   allNodes plan.fields=datasetNodes paymentDataset ∧
   ∃l,decodeScope paymentDataset.fields (rowValue paymentTable.1 paymentRow)=some l ∧
    readRow (fun _=>false) plan (rowValue paymentTable.1 paymentRow) =
     some (publishMessage paymentDataset.fields l) := by
 have ht:(columnTypes paymentTable.1).any (fun types=>admitsAll types paymentRow)=true := by
  decide +kernel
 have hch:∀c∈tableChecks paymentDataset.fields,
   c.value (fun _=>false) (rowValue paymentTable.1 paymentRow)=some true := by
  decide +kernel
 have hf:∀schema,Finds (fun id=>(fieldsIndex schema).lookup id) (fieldsIndex schema):=fun schema p hp=>
  Option.isSome_iff_exists.1 (List.lookup_isSome_iff.2 ⟨p,hp,by simp⟩)
 have hs:=(satisfies_iff (schema_written paymentTable_eq) (fun _=>false)
  fun c hc=>⟨true,hch c hc⟩).2 hch
 obtain ⟨plan,hp,hn,types,hty,hr⟩:=projection_reads_rows (by decide)
  paymentDataset_eq paymentTable_eq paymentIceberg_eq (fun _=>"") hf fun _=>false
 rw [hty] at ht
 exact ⟨plan,_,hp,hn,hr paymentRow ht hs⟩
end InvariantProtocol.ProjectionMeaning
