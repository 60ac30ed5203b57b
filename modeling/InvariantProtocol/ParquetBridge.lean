import InvariantProtocol.RendererPaths
namespace InvariantProtocol.ParquetBridge
open GoResult DataSchema DataMapping CompilerWalk ArrowSchema ParquetSchema RendererPaths
open ClickHouseSchema (isNilType)
open List hiding map

mutual

/-- Two Arrow fields of a logical field that differ in the types of durations only. -/
inductive Bridged : Field → ArrowField → ArrowField → Prop where
 | mk {a:FieldAttributes} {t:DataType} {name:String} {type type':ArrowType} {nullable:Bool}
   {metadata:Metadata} (h:BridgedType t type type') :
   Bridged (.mk a t) (.mk name type nullable metadata) (.mk name type' nullable metadata)

inductive BridgedType : DataType → ArrowType → ArrowType → Prop where
 | duration {p:String} {unit:TimeUnit} : BridgedType (.duration p unit) .duration .int64
 | struct {p:String} {nodes:List (Field×ArrowField×ArrowField)}
   (h:∀n∈nodes,Bridged n.1 n.2.1 n.2.2) : BridgedType (.struct p (nodes.map fun n=>n.1))
    (.struct (nodes.map fun n=>n.2.1)) (.struct (nodes.map fun n=>n.2.2))
 | list {p:String} {element:Field} {x y:ArrowField} (h:Bridged element x y) :
   BridgedType (.list p element 0) (.list x) (.list y)
 | fixedList {p:String} {element:Field} {x y:ArrowField} {n:ℕ} (hn:n≠0)
   (h:Bridged element x y) : BridgedType (.list p element n) (.fixedSizeList n x) (.fixedSizeList n y)
 | map {p:String} {key value:Field} {x y x' y':ArrowField} (hkey:Bridged key x x')
   (hvalue:Bridged value y y') : BridgedType (.map p key value) (.map x y) (.map x' y')
 | leaf {t:DataType} {type:ArrowType} (hleaf:isLeaf t=true) (h:∀p unit,t≠.duration p unit) :
   BridgedType t type type
end

/-- The bridge takes what the Arrow renderer makes of a field, under any name. -/
def Bridges (f:Field) : Prop :=
 ∀path m,mapField f path=.ok m → ∀name type nullable nullable' metadata,
  m.1=.mk name type nullable metadata → ∀name' path',∃type',
   compatibleArrowField (.mk name' type nullable' metadata) f path' =
    .ok (.mk name' type' nullable' metadata) ∧
   Bridged f (.mk name' type nullable' metadata) (.mk name' type' nullable' metadata)

lemma compatibleArrowFields_ok (path:String) {fields:List Field}
 {ms:List (ArrowField×List MappingDiagnostic)} (h:∀f∈fields,Bridges f)
 (hms:Forall₂ (fun f m=>∃path,mapField f path=.ok m) fields ms) :
 ∃nodes : List (Field×ArrowField×ArrowField),(∀n∈nodes,Bridged n.1 n.2.1 n.2.2) ∧
  (nodes.map fun n=>n.1)=fields ∧ (nodes.map fun n=>n.2.1)=ms.map Prod.fst ∧
  compatibleArrowFields path (ms.map Prod.fst) fields=.ok (nodes.map fun n=>n.2.2) := by
 induction hms with
 | nil=>exact ⟨[],by simp,rfl,rfl,rfl⟩
 | @cons f m fields ms hm _ ih=>
  obtain ⟨hf,hfl⟩:=List.forall_mem_cons.1 h
  obtain ⟨nodes,hn,hl,ha,hr⟩:=ih hfl
  obtain ⟨at_,hm⟩:=hm
  obtain ⟨⟨name,type,nullable,metadata⟩,ds⟩:=m
  obtain ⟨type',hfd,hb⟩:=hf at_ _ hm name type nullable nullable metadata rfl name
   (ClickHouseSchema.joinPath path f.attributes.name)
  refine ⟨(f,_,_)::nodes,List.forall_mem_cons.2 ⟨hb,hn⟩,?_,?_,?_⟩
  · rw [map_cons,hl]
  · rw [map_cons,ha]
    rfl
  · rw [map_cons,compatibleArrowFields,hfd,hr]
    rfl

lemma bridges (field:Field) : Bridges field := by
 induction field using Field.tree_induction with
 | hnil=>
  intro path m hm
  simp [mapField] at hm
 | hmk a t ih=>
  intro path m hm name type nullable nullable' metadata hm₁ name' path'
  have ht:isNilType t=false:=by
   cases t with
   | nil=>simp [mapField] at hm
   | _=>rfl
  obtain ⟨mapped,hmp,rfl⟩:=(arrow_mapField ht path m).1 hm
  obtain ⟨-,rfl,-,rfl⟩:=ArrowField.mk.inj hm₁
  cases t with
  | nil=>simp [isNilType] at ht
  | unset p=>simp [mapType] at hmp
  | duration p unit=>
   simp only [mapType,mapDurationType,bind_ok,pure_ok] at hmp
   obtain ⟨-,-,rfl⟩:=hmp
   exact ⟨_,rfl,.mk .duration⟩
  | struct p fields=>
   simp only [mapType,bind_ok,arrow_mapFields,pure_ok] at hmp
   obtain ⟨-,⟨ms,hms,rfl⟩,rfl⟩:=hmp
   obtain ⟨nodes,hnd,rfl,ha,hc⟩:=compatibleArrowFields_ok path' ih
    (hms.imp fun f m h=>⟨_,h⟩)
   have hl:(ms.map Prod.fst).length=(nodes.map fun n=>n.1).length:=by
    rw [←ha,length_map,length_map]
   refine ⟨.struct (nodes.map fun n=>n.2.2),?_,.mk ?_⟩
   · simp only [compatibleArrowField,lossless,bind_ok,rejectIf_ok,exists_const,pure_ok]
     exact ⟨not_not.2 hl,_,hc,rfl⟩
   · rw [lossless,nil_append,←ha]
     exact .struct hnd
  | list p element n=>
   simp only [mapType,bind_ok] at hmp
   obtain ⟨⟨⟨name,type,nullable,metadata⟩,ds⟩,hel,hmp⟩:=hmp
   obtain ⟨type',hf,hb⟩:=ih element mem_cons_self _ _ hel name type nullable nullable
    metadata rfl "item" (path'++"[]")
   unfold mapListType at hmp
   split_ifs at hmp with hn
   · simp only [bind_ok,rejectWhen_ok,exists_const,pure_ok] at hmp
     obtain ⟨-,rfl⟩:=hmp
     refine ⟨.fixedSizeList n (.mk "item" type' nullable metadata),?_,.mk (.fixedList hn hb)⟩
     simp only [compatibleArrowField,listBridge,bind_ok,rejectIf_ok,exists_const,pure_ok,if_neg hn]
     exact ⟨_,⟨by simp [hn],rfl⟩,_,hf,rfl⟩
   · obtain rfl : n=0:=not_not.1 hn
     obtain rfl:=Except.ok.inj hmp
     refine ⟨.list (.mk "item" type' nullable metadata),?_,.mk (.list hb)⟩
     simp only [compatibleArrowField,listBridge,lossless,bind_ok,rejectIf_ok,exists_const,pure_ok]
     exact ⟨_,⟨not_not.2 rfl,rfl⟩,_,hf,rfl⟩
  | map p key value=>
   simp only [mapType,bind_ok,precededBy_ok,pure_ok] at hmp
   obtain ⟨⟨⟨kname,ktype,knullable,kmetadata⟩,kds⟩,hky,⟨⟨vname,vtype,vnullable,vmetadata⟩,vds⟩,hvalue,rfl⟩:=
    hmp
   obtain ⟨ktype',hkf,hk⟩:=ih key mem_cons_self _ _ hky kname ktype knullable false
    kmetadata rfl "key" (path'++".key")
   obtain ⟨vtype',hvf,hv⟩:=ih value (mem_cons_of_mem _ mem_cons_self) _ _ hvalue vname
    vtype vnullable vnullable vmetadata rfl "value" (path'++".value")
   refine ⟨.map (.mk "key" ktype' false kmetadata) (.mk "value" vtype' vnullable vmetadata),?_,
    .mk (.map hk hv)⟩
   simp only [compatibleArrowField,lossless,bind_ok,pure_ok]
   exact ⟨_,hkf,_,hvf,rfl⟩
  | _=>exact ⟨_,rfl,.mk (.leaf rfl (by simp))⟩

/-- The bridge never fails on an Arrow schema of the same dataset, and changes durations only. -/
theorem bridge_changes_durations {dataset:DatasetSchema} {schema:Schema}
  {diagnostics:List MappingDiagnostic} (h:ArrowSchema.schema dataset=.ok (schema,diagnostics)) :
  ∃bridged,compatibleArrowSchema schema dataset=.ok bridged ∧ bridged.metadata=schema.metadata ∧
   ∃nodes : List (Field×ArrowField×ArrowField),(∀n∈nodes,Bridged n.1 n.2.1 n.2.2) ∧
    (nodes.map fun n=>n.1)=dataset.fields ∧ (nodes.map fun n=>n.2.1)=schema.fields ∧
    (nodes.map fun n=>n.2.2)=bridged.fields := by
 simp only [ArrowSchema.schema,bind_ok,arrow_mapFields,pure_ok,Prod.mk.injEq] at h
 obtain ⟨-,⟨ms,hms,rfl⟩,rfl,-⟩:=h
 obtain ⟨nodes,hn,hl,ha,hc⟩:=compatibleArrowFields_ok "" (fun f _=>bridges f)
  (hms.imp fun f m h=>⟨_,h⟩)
 refine ⟨⟨nodes.map fun n=>n.2.2,schemaMetadata dataset⟩,?_,rfl,nodes,hn,hl,ha,rfl⟩
 simp only [compatibleArrowSchema,bind_ok,rejectIf_ok,exists_const,pure_ok]
 refine ⟨not_not.2 ?_,_,hc,rfl⟩
 rw [← hl,nil_append,← ha,length_map,length_map]

def trip : DatasetSchema where
 sourceMessage := "shop.v1.Trip"
 name := "trip"
 description := ""
 fields:=[.mk ⟨"shop.v1.Trip.legs",[1],"legs",1,.repeated,false,"","",.protoField,false,"","",""⟩
  (.list "" (.mk ⟨"shop.v1.Trip.legs",[1],"element",2,.notApplicable,false,"","",.listElement,false,"","",""⟩
   (.duration "google.protobuf.Duration" .nanosecond)) 2)]
 lastFieldId:=2
 retiredFields:=[]

theorem trip_bridged : ∃schema diagnostics bridged,ArrowSchema.schema trip=.ok (schema,diagnostics) ∧
  compatibleArrowSchema schema trip=.ok bridged ∧ bridged.metadata=schema.metadata ∧
  ∃a m a' m',schema.fields=[.mk "legs" (.fixedSizeList 2 (.mk "item" .duration a m)) a' m'] ∧
   bridged.fields=[.mk "legs" (.fixedSizeList 2 (.mk "item" .int64 a m)) a' m'] := by
 obtain ⟨bridged,hb,hm,-⟩:=@bridge_changes_durations trip _ _ rfl
 exact ⟨_,_,bridged,rfl,hb,hm,_,_,_,_,rfl,(congrArg Schema.fields (Except.ok.inj hb)).symm⟩
end InvariantProtocol.ParquetBridge
