import InvariantProtocol.IcebergProjection
import InvariantProtocol.RowMeaning
import InvariantProtocol.RendererPaths
namespace InvariantProtocol.ProjectionPlan
open GoResult DataSchema DataMapping SqlText SqlExpr LogicalRow StoredShape ClickHouseLayout
open RowMeaning RendererPaths IcebergProjection
open ClickHouseSchema (joinPath oneofCaseName lastNumber isNilType)
open IcebergSchema (IcebergType NestedField)
open List hiding length map

variable {children:List FieldProjection} {field:Field} {fields:List Field}
 {n:NestedField×List MappingDiagnostic} {p:ℤ×IcebergType} {path:String}
def valueHole : Expr:=.hole "value"

def presentElement : Expr:=.tupleElement valueHole "present"

def valueElement : Expr:=.tupleElement valueHole "value"

def presenceExpr (a:FieldAttributes) (t:DataType) : Expr :=
 match a.presence with
 | .explicit=>if isComposite t then presentElement else .apply .isNotNull valueHole
 | .required=>presentElement
 | .oneof=>
  .and presentElement (.eq (.hole "case") (.int (a.protoNumberPath.getLastD 0).toNat))
 | _=>.bool true

def storedExpr (a:FieldAttributes) (t:DataType) : Expr :=
 match a.presence with
 | .explicit=>if isComposite t then valueElement else .apply .assumeNotNull valueHole
 | .required | .oneof=>valueElement
 | _=>valueHole

def conversionExpr (t:DataType) (e:Expr) : Expr :=
 match t with
 | .primitive _ .uint64 | .primitive _ .fixed64=>.accurateCast e "Decimal(20, 0)"
 | .primitive _ .uint32 | .primitive _ .fixed32=>.apply .toInt64 e
 | .timestamp _ _ _=>.apply .toUnixTimestamp64Nano e
 | _=>e

lemma accurateCast_text (e:Expr) : "accurateCast("++e.render++", 'Decimal(20, 0)')" =
  (Expr.accurateCast e "Decimal(20, 0)").render := by
 rw [←String.toList_inj]
 simp [Expr.render,call,show quoteText "Decimal(20, 0)" = "'Decimal(20, 0)'" by decide]

lemma conversionExpression_eq (t:DataType) (e:Expr) :
 conversionExpression t e.render=(conversionExpr t e).render := by
 cases t with
 | primitive p kind=>
  cases kind with
  | uint64=>exact accurateCast_text e
  | fixed64=>exact accurateCast_text e
  | _=>rfl
 | _=>rfl

lemma tuplePlan_presence : tuplePlan.presence=presentElement.render :=
 tupleElementExpression_eq valueHole "present"

lemma tuplePlan_value : tuplePlan.value=valueElement.render :=
 tupleElementExpression_eq valueHole "value"

structure NodePlanned (a:FieldAttributes) (t:DataType) (path:String) (node:NodeProjection) :
  Prop where
 fieldPath : node.fieldPath=path
 name : node.name=a.name
 stableID : node.stableID=a.stableId
 presence : node.presenceExpression=(presenceExpr a t).render
 value : node.valueExpression=(conversionExpr t (storedExpr a t)).render
 discriminator : node.discriminator=if a.presence=.oneof then oneofCaseName a.oneof else ""

mutual

def Planned : Field → String → FieldProjection → Prop
 | .nil,_,_=>False
 | .mk a t,path,.mk node children=>NodePlanned a t path node ∧ PlannedBelow t path children

def PlannedBelow : DataType → String → List FieldProjection → Prop
 | .struct _ fields,path,children=>PlannedMembers path fields children
 | .list _ element _,path,children=>
  ∃child,children=[child] ∧ Planned element (path++"[]") child
 | .map _ key value,path,children=>∃k v,children=[k,v] ∧
   Planned key (path++".key") k ∧ Planned value (path++".value") v
 | _,_,children=>children=[]

def PlannedMembers (path:String) : List Field → List FieldProjection → Prop
 | [],children=>children=[]
 | field::rest,children=>∃child others,children=child::others ∧
   Planned field (joinPath path field.attributes.name) child ∧ PlannedMembers path rest others
end

mutual

/-- The nodes of a logical tree in pre-order, each with its path and its ID. -/
def fieldNodes : Field → String → List (String×ℤ)
 | .nil,_=>[]
 | .mk a t,path=>(path,a.stableId)::typeNodes t path

def typeNodes : DataType → String → List (String×ℤ)
 | .struct _ fields,path=>memberNodes path fields
 | .list _ element _,path=>fieldNodes element (path++"[]")
 | .map _ key value,path=>fieldNodes key (path++".key")++fieldNodes value (path++".value")
 | _,_=>[]

def memberNodes (path:String) : List Field → List (String×ℤ)
 | []=>[]
 | child::rest=>fieldNodes child (joinPath path child.attributes.name)++memberNodes path rest
end

def datasetNodes (dataset:DatasetSchema) : List (String×ℤ):=memberNodes "" dataset.fields

mutual

def planNodes : FieldProjection → List (String×ℤ)
 | .mk node children=>(node.fieldPath,node.stableID)::allNodes children

def allNodes : List FieldProjection → List (String×ℤ)
 | []=>[]
 | child::rest=>planNodes child++allNodes rest
end

lemma plannedMembers_nodes
 (hf:∀f∈fields,∀path plan,Planned f path plan → planNodes plan=fieldNodes f path)
 (h:PlannedMembers path fields children) : allNodes children=memberNodes path fields := by
 induction fields generalizing children with
 | nil=>
  obtain rfl : children=[]:=h
  rfl
 | cons field rest ih=>
  obtain ⟨child,others,rfl,hc,ho⟩:=h
  obtain ⟨hfl,hr⟩:=List.forall_mem_cons.1 hf
  rw [allNodes,memberNodes,hfl _ _ hc,ih hr ho]

lemma planned_nodes (field:Field) :
 ∀path plan,Planned field path plan → planNodes plan=fieldNodes field path := by
 induction field using Field.tree_induction with
 | hnil=>exact fun _ _ h=>h.elim
 | hmk a t ih=>
  rintro path ⟨node,children⟩ ⟨hnode,hb⟩
  rw [planNodes,fieldNodes,hnode.fieldPath,hnode.stableID]
  congr 1
  cases t with
  | struct p fields=>exact plannedMembers_nodes ih hb
  | list p element n=>
   obtain ⟨child,rfl,hc⟩:=hb
   simpa [allNodes,typeNodes] using ih element mem_cons_self _ _ hc
  | map p key value=>
   obtain ⟨k,v,rfl,hk,hv⟩:=hb
   have hky:=ih key mem_cons_self _ _ hk
   have hvalue:=ih value (mem_cons_of_mem _ mem_cons_self) _ _ hv
   simp [allNodes,typeNodes,hky,hvalue]
  | _=>
   obtain rfl : children=[]:=hb
   rfl

lemma fieldIndex_eq (n:NestedField) : fieldIndex n=(n.id,n.type)::typeIndex n.type := by
 cases n
 rfl

lemma mem_fieldsIndex {n:NestedField} {fields:List NestedField}
 (hn:n∈fields) (hp:p∈fieldIndex n) : p∈fieldsIndex fields := by
 induction fields with
 | nil=>simp at hn
 | cons field rest ih=>
  rw [fieldsIndex,mem_append]
  rcases List.mem_cons.1 hn with rfl|hn
  · exact .inl hp
  · exact .inr (ih hn)

variable {t:DataType}
lemma presencePlan_planned {a:FieldAttributes} (hok:PresenceOk a t)
 (hn:a.presence=.oneof → a.protoNumberPath≠[]) (path clickHouseType icebergType:String) :
 ∃plan,presencePlan a path (isComposite t)=.ok plan ∧
  NodePlanned a t path (projectedNode a t path clickHouseType icebergType plan) := by
 have hpl:∀plan : PresencePlan,plan.presence=(presenceExpr a t).render →
   plan.value=(storedExpr a t).render →
   plan.discriminator=(if a.presence=.oneof then oneofCaseName a.oneof else "") →
   NodePlanned a t path (projectedNode a t path clickHouseType icebergType plan):=by
  intro plan hpr hvalue hd
  refine ⟨rfl,rfl,rfl,hpr,?_,hd⟩
  rw [←conversionExpression_eq,←hvalue]
  rfl
 have hpn:presenceExpr a t=.bool true → storedExpr a t=valueHole → a.presence≠.oneof →
   NodePlanned a t path (projectedNode a t path clickHouseType icebergType {}):=by
  intro hpr hvalue ho
  exact hpl {} (by rw [hpr];rfl) (by rw [hvalue];rfl) (by rw [if_neg ho])
 unfold PresenceOk at hok
 unfold presencePlan
 cases hp : a.presence with
 | explicit=>
  refine ⟨_,rfl,hpl _ ?_ ?_ ?_⟩
  · by_cases hc : isComposite t=true
    · simpa [presenceExpr,hp,hc] using tuplePlan_presence
    · simp [presenceExpr,hp,hc]
      rfl
  · by_cases hc : isComposite t=true
    · simpa [storedExpr,hp,hc] using tuplePlan_value
    · simp [storedExpr,hp,hc]
      rfl
  · cases isComposite t <;> simp [hp,tuplePlan]
 | required=>
  exact ⟨_,rfl,hpl _ (by simpa [presenceExpr,hp] using tuplePlan_presence)
   (by simpa [storedExpr,hp] using tuplePlan_value) (by simp [hp,tuplePlan])⟩
 | oneof=>
  have hne:=hn hp
  simp only [List.getLast?_eq_some_getLast hne]
  refine ⟨_,rfl,hpl _ ?_ (by simpa [storedExpr,hp] using tuplePlan_value) (by simp [hp])⟩
  have hl:a.protoNumberPath.getLastD 0=a.protoNumberPath.getLast hne:=by
   rw [List.getLastD_eq_getLast?,List.getLast?_eq_some_getLast hne]
   rfl
  rw [tuplePlan_presence,presenceExpr,hp,hl]
  rfl
 | implicit=>exact ⟨_,rfl,hpn (by simp [presenceExpr,hp]) (by simp [storedExpr,hp]) (by simp [hp])⟩
 | repeated=>exact ⟨_,rfl,hpn (by simp [presenceExpr,hp]) (by simp [storedExpr,hp]) (by simp [hp])⟩
 | map=>exact ⟨_,rfl,hpn (by simp [presenceExpr,hp]) (by simp [storedExpr,hp]) (by simp [hp])⟩
 | notApplicable=>
  exact ⟨_,rfl,hpn (by simp [presenceExpr,hp]) (by simp [storedExpr,hp]) (by simp [hp])⟩
 | unspecified=>simp [hp] at hok
 | unrecognized number=>simp [hp] at hok

variable {typeText:IcebergType → String} {finder:ℤ → Option IcebergType}
def Finds (finder:ℤ → Option IcebergType) (index:List (ℤ×IcebergType)) : Prop :=
 ∀p∈index,∃type,finder p.1=some type

def Projects (typeText:IcebergType → String) (finder:ℤ → Option IcebergType) (field:Field) :
  Prop :=
 ∀path m n,ClickHouseSchema.mapField field path=.ok m →
  IcebergSchema.mapField field path=.ok n → Finds finder (fieldIndex n.1) →
  ∀icebergType,∃plan,projectField typeText finder field path icebergType=.ok plan ∧
   Planned field path plan

lemma mappable_ne_nil (h:MappableField field) : field.isNil=false := by
 cases field with
 | nil=>exact h.elim
 | mk a t=>rfl

lemma mappable_typed (h:MappableType t) : isNilType t=false := by
 cases t with
 | nil=>exact h.elim
 | _=>rfl

lemma mapped_id (hm:MappableField field) (h:IcebergSchema.mapField field path=.ok n) :
 n.1.id=field.attributes.stableId := by
 cases field with
 | nil=>exact hm.elim
 | mk a t=>
  obtain ⟨mapped,-,defaults,-,rfl⟩:=
   (iceberg_mapField (mappable_typed hm.2) path n).1 h
  rfl

lemma targetType_found (typeText:IcebergType → String) {n:NestedField}
 (hf:Finds finder (fieldIndex n)) (path:String) :
 ∃text,targetType typeText finder n.id path=.ok text := by
 obtain ⟨type,ht⟩:=hf (n.id,n.type) (by rw [fieldIndex_eq];exact mem_cons_self)
 exact ⟨typeText type,by simp [targetType,ht]⟩

lemma Projects.child {child:Field} (h:Projects typeText finder child)
 (hmp:MappableField child) (path:String) {childPath:String}
 {m:ClickHouseSchema.MappedField×List MappingDiagnostic} (hm:ClickHouseSchema.mapField child childPath=.ok m)
 (hn:IcebergSchema.mapField child childPath=.ok n) (hf:Finds finder (fieldIndex n.1)) :
 ∃text plan,childType typeText finder path child childPath=.ok text ∧
  projectField typeText finder child childPath text=.ok plan ∧
  Planned child childPath plan := by
 obtain ⟨text,ht⟩:=targetType_found typeText hf childPath
 rw [mapped_id hmp hn] at ht
 obtain ⟨plan,hpl,hp⟩:=h childPath m n hm hn hf text
 refine ⟨text,plan,?_,hpl,hp⟩
 simp [childType,mappable_ne_nil hmp,ht]

lemma projectMembers_planned {ms:List (ClickHouseSchema.MappedField×List MappingDiagnostic)}
 {ns:List (NestedField×List MappingDiagnostic)}
 (hfd:∀f∈fields,MappableField f ∧ Projects typeText finder f) (hms:Forall₂ (fun f m=>
  ClickHouseSchema.mapField f (joinPath path f.attributes.name)=.ok m) fields ms)
 (hns:Forall₂ (fun f n=> IcebergSchema.mapField f (joinPath path f.attributes.name)=.ok n) fields ns)
 (hf:∀n∈ns,Finds finder (fieldIndex n.1)) :
 ∃children,projectMembers typeText finder path fields=.ok children ∧
  PlannedMembers path fields children := by
 induction fields generalizing ms ns with
 | nil=>exact ⟨[],rfl,rfl⟩
 | cons field rest ih=>
  obtain ⟨m,ms',hm,hmr,rfl⟩:=List.forall₂_cons_left_iff.1 hms
  obtain ⟨n,ns',hn,hnr,rfl⟩:=List.forall₂_cons_left_iff.1 hns
  obtain ⟨hfl,hr⟩:=List.forall_mem_cons.1 hfd
  obtain ⟨hfn,hf⟩:=List.forall_mem_cons.1 hf
  obtain ⟨text,plan,ht,hpl,hp⟩:=hfl.2.child hfl.1 path hm hn hfn
  obtain ⟨others,ho,hmm⟩:=ih hr hmr hnr hf
  refine ⟨plan::others,?_,plan,others,rfl,hp,hmm⟩
  simp [projectMembers,ht,hpl,ho]

/-- A field that is read through a discriminator has a number to compare it with. -/
def Numbered (field:Field) : Prop :=
 field.attributes.presence=.oneof → field.attributes.protoNumberPath≠[]

lemma numbered_member (hok:ScopeOk fields) {f:Field} (hf:f∈fields) : Numbered f := by
 intro hp hem
 have ho:f.attributes.oneof≠"" := fun ho=>hok.single f hf ho hp
 have hn:=(hok.member f hf ho).2.1
 simp [lastNumber,hem] at hn

lemma numbered_item (h:field.attributes.presence=.notApplicable) : Numbered field := by
 intro hp
 rw [h] at hp
 cases hp

lemma listType_type (length:ℕ) (n:NestedField) (diagnostics:List MappingDiagnostic) :
 (IcebergSchema.mapListType length n diagnostics).type=.list n.id n.type n.required := by
 unfold IcebergSchema.mapListType
 split_ifs <;> rfl

lemma projectChildren_planned {mapped:ClickHouseSchema.MappedType} {iceberg:IcebergSchema.MappedType}
 (ih:∀f∈t.children,MappableField f → ItemsField f → Numbered f → Projects typeText finder f)
 (ht:MappableType t) (hit:ItemsType t) (hmp:ClickHouseSchema.mapType t path=.ok mapped)
 (hi:IcebergSchema.mapType t path=.ok iceberg) (hfn:Finds finder (typeIndex iceberg.type)) :
 ∃children,projectChildren typeText finder t path=.ok children ∧
  PlannedBelow t path children := by
 cases t with
 | struct p fields=>
  obtain ⟨hsc,hfl⟩:=ht
  have hfl:=mappableFields_iff.1 hfl
  have hit:=itemsFields_iff.1 hit
  simp only [ClickHouseSchema.mapType,bind_ok,pure_ok] at hmp
  obtain ⟨groups,-,scope,hs,-⟩:=hmp
  obtain ⟨ms,hms,-⟩:=clickHouse_mapScopeFields hs
  simp only [IcebergSchema.mapType,bind_ok,iceberg_mapFields,pure_ok] at hi
  obtain ⟨-,⟨ns,hns,rfl⟩,rfl⟩:=hi
  refine projectMembers_planned (fun f hf=>⟨hfl f hf,
   ih f hf (hfl f hf) (hit f hf) (numbered_member hsc hf)⟩) hms hns ?_
  intro n hn q hq
  exact hfn q (mem_fieldsIndex (List.mem_map.2 ⟨n,hn,rfl⟩) hq)
 | list p element length=>
  simp only [ClickHouseSchema.mapType,bind_ok,rejectWhen_ok,exists_const,pure_ok] at hmp
  obtain ⟨-,m,hm,-⟩:=hmp
  simp only [IcebergSchema.mapType,bind_ok,pure_ok] at hi
  obtain ⟨n,hn,rfl⟩:=hi
  rw [listType_type,typeIndex,←fieldIndex_eq] at hfn
  obtain ⟨text,child,htx,hc,hp⟩:=
   (ih element mem_cons_self ht hit.2 (numbered_item hit.1)).child ht path
    hm hn hfn
  exact ⟨[child],by simp [projectChildren,htx,hc],child,rfl,hp⟩
 | map p key value=>
  simp only [ClickHouseSchema.mapType,bind_ok,rejectWhen_ok,exists_const,precededBy_ok] at hmp
  obtain ⟨-,m,hm,m',hm',-⟩:=hmp
  simp only [IcebergSchema.mapType,bind_ok,precededBy_ok,pure_ok] at hi
  obtain ⟨n,hn,n',hn',rfl⟩:=hi
  rw [typeIndex,←fieldIndex_eq,←fieldIndex_eq] at hfn
  obtain ⟨hky,hvalue⟩:=List.forall_mem_append.1 hfn
  obtain ⟨text,k,htx,hk,hkp⟩:=
   (ih key mem_cons_self ht.1 hit.1.2.2 (numbered_item hit.1.1)).child ht.1
    path hm hn hky
  obtain ⟨text',v,ht',hv,hvp⟩:=
   (ih value (mem_cons_of_mem _ mem_cons_self) ht.2 hit.2.2
    (numbered_item hit.2.1)).child ht.2 path hm' hn' hvalue
  exact ⟨[k,v],by simp [projectChildren,htx,hk,ht',hv],k,v,rfl,hkp,
   hvp⟩
 | _=>exact ⟨[],rfl,rfl⟩

lemma projectField_planned (typeText:IcebergType → String) (finder:ℤ → Option IcebergType)
 (field:Field) : MappableField field → ItemsField field → Numbered field →
  Projects typeText finder field := by
 induction field using Field.tree_induction with
 | hnil=>exact fun h=>h.elim
 | hmk a t ih=>
  rintro ⟨hok,hty⟩ hit hnm path m n hm hn hf icebergType
  have ht:=mappable_typed hty
  obtain ⟨iceberg,hi,defaults,-,rfl⟩:=(iceberg_mapField ht path n).1 hn
  obtain ⟨-,hf⟩:=List.forall_mem_cons.1 hf
  have hmf:=hm
  simp only [ClickHouseSchema.mapField,bind_ok,ClickHouseSchema.refuseType,mapError_ok] at hmf
  obtain ⟨_,-,mapped,hmp,-⟩:=hmf
  have hc:mapped.composite=isComposite t:=
   (mapType_written (fun f _=>mapField_written f) hmp).composite
  obtain ⟨plan,hp,hnode⟩:=presencePlan_planned hok hnm path m.1.sqlType icebergType
  obtain ⟨children,hch,hb⟩:=
   projectChildren_planned ih hty hit hmp hi hf
  refine ⟨.mk _ children,?_,hnode,hb⟩
  simp [projectField,ht,mapError_ok,hm,hmp,hc,hp,hch]

lemma projectMembers_columns (h:projectMembers typeText finder "" fields=.ok children) :
 fields.mapM (projectColumn typeText finder)=.ok children := by
 induction fields generalizing children with
 | nil=>exact h
 | cons field rest ih=>
  simp only [projectMembers,childType,bind_ok,rejectIf_ok,exists_const,pure_ok] at h
  obtain ⟨text,⟨-,ht⟩,plan,hp,others,ho,rfl⟩:=h
  have hc:projectColumn typeText finder field=.ok plan:=by
   simp only [projectColumn,bind_ok]
   exact ⟨text,ht,hp⟩
  simp only [mapM_cons,bind_ok,pure_ok]
  exact ⟨plan,hc,others,ih ho,rfl⟩

lemma projectToIceberg_planned (typeText:IcebergType → String)
 {findFieldByID:List NestedField → ℤ → Option IcebergType}
 (hfind:∀schema,Finds (findFieldByID schema) (fieldsIndex schema)) {dataset:DatasetSchema}
 {table:ClickHouseSchema.TableSchema} {fields:List NestedField}
 {clickHouseDiagnostics icebergDiagnostics:List MappingDiagnostic} (hit:ItemsFields dataset.fields)
 (hs:ClickHouseSchema.schema dataset=.ok (table,clickHouseDiagnostics))
 (hi:IcebergSchema.schema dataset=.ok (fields,icebergDiagnostics)) :
 ∃plan,projectToIceberg typeText findFieldByID dataset =
   .ok (plan,clickHouseDiagnostics++icebergDiagnostics) ∧
  PlannedMembers "" dataset.fields plan.fields := by
 have hw:=schema_written hs
 have hmp:=mappableFields_iff.1 hw.mappable
 have hit:=itemsFields_iff.1 hit
 have hsc:=hs
 simp only [ClickHouseSchema.schema,bind_ok] at hsc
 obtain ⟨_,-,_,-,scope,hsc,-⟩:=hsc
 obtain ⟨ms,hms,-⟩:=clickHouse_mapScope hsc
 have hm:=hi
 simp only [IcebergSchema.schema,bind_ok,iceberg_mapFields,Prod.mk.injEq] at hm
 obtain ⟨_,-,ns,hns,hfl,-⟩:=hm
 have hpr:∀f∈dataset.fields,
   MappableField f ∧ Projects typeText (findFieldByID fields) f:=fun f hf=>
  ⟨hmp f hf,projectField_planned _ _ f (hmp f hf) (hit f hf)
   (numbered_member hw.scope hf)⟩
 have hfn:∀n∈ns,Finds (findFieldByID fields) (fieldIndex n.1):=by
  intro n hn p hp
  refine hfind fields p (mem_fieldsIndex ?_ hp)
  rw [hfl]
  exact List.mem_map.2 ⟨n,hn,rfl⟩
 obtain ⟨children,hc,hpl⟩:=projectMembers_planned hpr hms hns hfn
 refine ⟨⟨projectionVersion,dataset.name,dataset.sourceMessage,children⟩,?_,hpl⟩
 simp only [projectToIceberg,bind_ok,mapError_ok,hs,hi,refuse_ok]
 exact ⟨_,rfl,_,rfl,children,projectMembers_columns hc,rfl⟩
end InvariantProtocol.ProjectionPlan
