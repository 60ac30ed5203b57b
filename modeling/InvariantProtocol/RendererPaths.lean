import InvariantProtocol.FieldTree
import InvariantProtocol.ParquetSchema
import InvariantProtocol.IcebergSchema
import InvariantProtocol.PostgresSchema
import InvariantProtocol.SqliteSchema
import InvariantProtocol.PythonArrow
import InvariantProtocol.ScopeNames
namespace InvariantProtocol.RendererPaths
open ListRelations GoResult ProtoDescriptor DataSchema CompilerState DataCompiler CompiledTree
open CompilerWalk CompileOutcome SlotShape ScopeNames DataMapping FieldTree RendererRules
open DataHistory (orderDataset orderDataset_eq)
open ClickHouseSchema (joinPath isNilType)
open List hiding map

variable {A E:Type} {a:FieldAttributes} {ds:List MappingDiagnostic} {fields:List Field}
 {fs:List ArrowSchema.ArrowField} {mapped:ClickHouseSchema.MappedType}
 {out:List ArrowSchema.ArrowField×List MappingDiagnostic} {parent path:String}
 {schema:ArrowSchema.Schema} {t:DataType} {u:ClickHouseSchema.ScopeState} {uuidSupport:Bool}
def Typed (f:Field) : Prop :=
 ∀g,FieldWithin f g → g.isNil=false ∧ isNilType g.type=false

lemma typed_mk : Typed (.mk a t) ↔ isNilType t=false ∧ ∀f∈t.children,Typed f := by
 rw [Typed,forall_within_mk]
 simp [Field.isNil,Typed]

lemma joinPath_eq (h:parent≠"") (child:String) : joinPath parent child=parent++"."++child := by
 simp [joinPath,h]

lemma append_ne_empty (h:path≠"") (suffix:String) : path++suffix≠"" := by
 intro hem
 apply h
 have hc:=congrArg String.toList hem
 rw [String.toList_append] at hc
 rw [←String.toList_inj]
 exact (List.append_eq_nil_iff.1 hc).1

section
variable (Visits:Field → String → List String → Prop)
/-- The reports on the nodes below a node of the given type. -/
def Below : DataType → String → List String → Prop
 | .struct _ fields,path,rest=>∃paths,Forall₂
   (fun f ps=>Visits f (path++"."++f.attributes.name) ps) fields paths ∧
   rest=paths.flatten
 | .list _ element _,path,rest=>Visits element (path++"[]") rest
 | .map _ key value,path,rest=>∃ks vs,Visits key (path++".key") ks ∧
   Visits value (path++".value") vs ∧ rest=ks++vs
 | _,_,rest=>rest=[]

/-- A walk that reports on a node before the nodes below it. -/
def TreeWalk : Prop :=
 ∀a t path ps,isNilType t=false → path≠"" → Visits (.mk a t) path ps →
  ∃rest,ps=path::rest ∧ Below Visits t path rest

variable {Visits}
lemma flatten_paths {paths:List (List String)} {path:Field → String}
 (h:Forall₂ (fun f ps=>ps=fieldPaths f (path f)) fields paths) :
 paths.flatten=fields.flatMap fun f=>fieldPaths f (path f) := by
 induction h with
 | nil=>rfl
 | cons hps _ ih=>rw [flatten_cons,flatMap_cons,hps,ih]

lemma TreeWalk.paths (h:TreeWalk Visits) (field:Field) : Typed field →
 ∀path ps,path≠"" → Visits field path ps → ps=fieldPaths field path := by
 induction field using Field.tree_induction with
 | hnil=>
  intro ht
  have hnil:=(ht _ (.self _)).1
  simp [Field.isNil] at hnil
 | hmk a t ih=>
  intro ht path ps hpt hvt
  obtain ⟨hty,hc⟩:=typed_mk.1 ht
  have hb:∀f∈t.children,∀suffix ps,Visits f (path++suffix) ps →
    ps=fieldPaths f (path++suffix):=fun f hf suffix ps=>
   ih f hf (hc f hf) _ ps (append_ne_empty hpt suffix)
  obtain ⟨rest,rfl,hr⟩:=h a t path ps hty hpt hvt
  rw [fieldPaths]
  congr 1
  cases t with
  | struct p fields=>
   obtain ⟨paths,hp,rfl⟩:=hr
   rw [typePaths,structPaths_eq]
   apply flatten_paths
   rw [forall₂_iff_get] at hp ⊢
   refine ⟨hp.1,fun i h₁ h₂=>?_⟩
   have hm:fields.get ⟨i,h₁⟩∈(DataType.struct p fields).children:=get_mem _ _
   have hv:=hp.2 i h₁ h₂
   rw [String.append_assoc] at hv ⊢
   exact hb _ hm _ _ hv
  | list p element n=>exact hb element mem_cons_self "[]" rest hr
  | map p key value=>
   obtain ⟨ks,vs,hks,hvs,rfl⟩:=hr
   rw [typePaths,hb key mem_cons_self ".key" ks hks,
    hb value (mem_cons_of_mem _ mem_cons_self) ".value" vs hvs]
  | _=>exact hr

lemma TreeWalk.dataset (h:TreeWalk Visits) {dataset:DatasetSchema}
 (hty:∀f∈dataset.fields,Typed f ∧ f.attributes.name≠"") {paths:List (List String)}
 (hp:Forall₂ (fun f ps=>Visits f f.attributes.name ps) dataset.fields paths) :
 paths.flatten=datasetPaths dataset := by
 apply flatten_paths
 rw [forall₂_iff_get] at hp ⊢
 refine ⟨hp.1,fun i h₁ h₂=>?_⟩
 obtain ⟨ht,hn⟩:=hty _ (get_mem dataset.fields ⟨i,h₁⟩)
 exact h.paths _ ht _ _ hn (hp.2 i h₁ h₂)
end

/-! ### The mappers that report as they map -/

def Reports {E A:Type} (call:Field → String → Except E (A×List MappingDiagnostic))
  (f:Field) (path:String) (ps:List String) : Prop :=
 ∃m,call f path=.ok m ∧ ps=m.2.map MappingDiagnostic.fieldPath

variable {call:Field → String → Except E (A×List MappingDiagnostic)} {ms:List (A×List MappingDiagnostic)}
lemma forall₂_reports {path:Field → String} (h:Forall₂ (fun f m=>call f (path f)=.ok m) fields ms) :
 ∃paths,Forall₂ (fun f ps=>Reports call f (path f) ps) fields paths ∧
  (ms.flatMap Prod.snd).map MappingDiagnostic.fieldPath=paths.flatten := by
 induction h with
 | nil=>exact ⟨[],.nil,rfl⟩
 | cons hm _ ih=>
  obtain ⟨paths,hp,heq⟩:=ih
  refine ⟨_::paths,.cons ⟨_,hm,rfl⟩ hp,?_⟩
  rw [flatMap_cons,map_append,heq,flatten_cons]

section
open ArrowSchema
lemma arrow_mapFields : mapFields path fs ds fields=.ok out ↔ ∃ms,Forall₂
  (fun f m=>mapField f (joinPath path f.attributes.name)=.ok m) fields ms ∧
  out=(fs++ms.map Prod.fst,ds++ms.flatMap Prod.snd) :=
 collect_ok (fun _ _=>rfl)
  (fun xs ds f rest out=>by simp [mapFields]) fields fs ds out
end

section
open PythonArrow
lemma python_mapFields : mapFields uuidSupport path fs ds fields=.ok out ↔ ∃ms,Forall₂
  (fun f m=>mapField uuidSupport f
   (PythonArrow.joinPath path f.attributes.name)=.ok m) fields ms ∧
  out=(fs++ms.map Prod.fst,ds++ms.flatMap Prod.snd) :=
 collect_ok (fun _ _=>rfl)
  (fun xs ds f rest out=>by simp [mapFields]) fields fs ds out
end

section
open IcebergSchema
lemma iceberg_mapFields {fs:List NestedField}
 {out:List NestedField×List MappingDiagnostic} :
 mapFields path fs ds fields=.ok out ↔ ∃ms,Forall₂
  (fun f m=>mapField f (joinPath path f.attributes.name)=.ok m) fields ms ∧
  out=(fs++ms.map Prod.fst,ds++ms.flatMap Prod.snd) :=
 collect_ok (fun _ _=>rfl)
  (fun xs ds f rest out=>by simp [mapFields]) fields fs ds out

lemma arrow_mapField (ht:isNilType t=false) (path:String)
 (m:ArrowSchema.ArrowField×List MappingDiagnostic) : ArrowSchema.mapField (.mk a t) path=.ok m ↔
  ∃mapped,ArrowSchema.mapType t path=.ok mapped ∧
   (.mk a.name mapped.type a.nullable (ArrowSchema.fieldMetadata a t),
    ArrowSchema.fieldDiagnostic a path mapped::mapped.children)=m := by
 cases t with
 | nil=>simp [isNilType] at ht
 | _=>simp only [ArrowSchema.mapField,bind_ok,pure_ok]

lemma arrow_leaf {mapped:ArrowSchema.MappedType}
 (hl:isLeaf t=true) (h:ArrowSchema.mapType t path=.ok mapped) :
 mapped.children=[] := by
 cases t with
 | primitive p kind=>
  simp only [ArrowSchema.mapType,ArrowSchema.mapPrimitiveType,bind_ok,refuse_ok,pure_ok] at h
  obtain ⟨-,-,rfl⟩:=h
  rfl
 | enum p enum=>
  rw [←Except.ok.inj h,ArrowSchema.mapEnumType]
  split <;> rfl
 | json p kind=>rw [←Except.ok.inj h];rfl
 | uuid p=>rw [←Except.ok.inj h];rfl
 | timestamp | duration | decimal | fixedBytes=>
  simp only [ArrowSchema.mapType,ArrowSchema.mapTimestampType,ArrowSchema.mapDurationType,
   ArrowSchema.mapDecimalType,ArrowSchema.mapFixedBytesType,bind_ok,pure_ok] at h
  obtain ⟨-,-,rfl⟩:=h
  rfl
 | nil | unset | struct | list | map=>cases hl

lemma arrow_treeWalk : TreeWalk (Reports ArrowSchema.mapField) := by
 rintro a t path ps ht hp ⟨m,hm,rfl⟩
 obtain ⟨mapped,hmp,rfl⟩:=(arrow_mapField ht path m).1 hm
 refine ⟨mapped.children.map MappingDiagnostic.fieldPath,by
  simp [ArrowSchema.fieldDiagnostic],?_⟩
 cases t with
 | struct p fields=>
  simp only [ArrowSchema.mapType,bind_ok,arrow_mapFields,pure_ok] at hmp
  obtain ⟨-,⟨ms,hms,rfl⟩,rfl⟩:=hmp
  simp only [joinPath_eq hp] at hms
  simpa [Below,ArrowSchema.lossless] using forall₂_reports hms
 | list p element n=>
  simp only [ArrowSchema.mapType,bind_ok] at hmp
  obtain ⟨m,hel,hmp⟩:=hmp
  refine ⟨m,hel,?_⟩
  unfold ArrowSchema.mapListType at hmp
  split_ifs at hmp with hn
  · simp only [bind_ok,rejectWhen_ok,exists_const,pure_ok] at hmp
    rw [←hmp.2]
  · rw [←Except.ok.inj hmp]
    rfl
 | map p key value=>
  simp only [ArrowSchema.mapType,bind_ok,precededBy_ok,pure_ok] at hmp
  obtain ⟨k,hk,v,hv,rfl⟩:=hmp
  exact ⟨_,_,⟨k,hk,rfl⟩,⟨v,hv,rfl⟩,by simp [ArrowSchema.lossless]⟩
 | nil=>cases ht
 | unset p=>simp [ArrowSchema.mapType] at hmp
 | _=>simp [Below,arrow_leaf rfl hmp]

lemma python_mapField (ht:isNilType t=false)
 (path:String) (m:ArrowSchema.ArrowField×List MappingDiagnostic) :
 PythonArrow.mapField uuidSupport (.mk a t) path=.ok m ↔
  ∃mapped,PythonArrow.mapType uuidSupport t path=.ok mapped ∧
   ∃metadata,PythonArrow.fieldMetadata a t=.ok metadata ∧
    (.mk a.name mapped.type a.nullable metadata,
     PythonArrow.fieldDiagnostic a path mapped::mapped.children)=m := by
 cases t with
 | nil=>simp [isNilType] at ht
 | _=>simp only [PythonArrow.mapField,bind_ok,pure_ok]

lemma python_leaf {mapped:ArrowSchema.MappedType} (hl:isLeaf t=true)
 (h:PythonArrow.mapType uuidSupport t path=.ok mapped) : mapped.children=[] := by
 cases t with
 | enum p enum=>
  rw [←Except.ok.inj h,PythonArrow.mapEnumType,ArrowSchema.mapEnumType]
  split <;> rfl
 | primitive | timestamp | duration | json | decimal | uuid | fixedBytes=>
  simp only [PythonArrow.mapType,PythonArrow.mapPrimitiveType,PythonArrow.mapTimestampType,
   PythonArrow.mapDurationType,PythonArrow.mapJsonType,PythonArrow.mapDecimalType,
   PythonArrow.mapUuidType,PythonArrow.mapFixedBytesType,bind_ok,pure_ok] at h
  obtain ⟨-,-,rfl⟩:=h
  rfl
 | nil | unset | struct | list | map=>cases hl

lemma python_joinPath (h:parent≠"") (child:String) :
 PythonArrow.joinPath parent child=parent++"."++child := by
 simp [PythonArrow.joinPath,h]

lemma python_treeWalk (uuidSupport:Bool) : TreeWalk (Reports (PythonArrow.mapField uuidSupport)) := by
 rintro a t path ps ht hp ⟨m,hm,rfl⟩
 obtain ⟨mapped,hmp,metadata,-,rfl⟩:=(python_mapField ht path m).1 hm
 refine ⟨mapped.children.map MappingDiagnostic.fieldPath,by
  simp [PythonArrow.fieldDiagnostic],?_⟩
 cases t with
 | struct p fields=>
  simp only [PythonArrow.mapType,bind_ok,python_mapFields,pure_ok] at hmp
  obtain ⟨-,⟨ms,hms,rfl⟩,rfl⟩:=hmp
  simp only [python_joinPath hp] at hms
  simpa [Below,ArrowSchema.lossless] using forall₂_reports hms
 | list p element n=>
  simp only [PythonArrow.mapType,bind_ok] at hmp
  obtain ⟨m,hel,hmp⟩:=hmp
  refine ⟨m,hel,?_⟩
  unfold PythonArrow.mapListType at hmp
  split_ifs at hmp with hn
  · simp only [bind_ok,rejectIf_ok,exists_const,pure_ok] at hmp
    rw [←hmp.2]
  · rw [←Except.ok.inj hmp]
    rfl
 | map p key value=>
  simp only [PythonArrow.mapType,bind_ok,pure_ok] at hmp
  obtain ⟨k,hk,v,hv,rfl⟩:=hmp
  exact ⟨_,_,⟨k,hk,rfl⟩,⟨v,hv,rfl⟩,by simp [ArrowSchema.lossless]⟩
 | nil=>cases ht
 | unset p=>simp [PythonArrow.mapType] at hmp
 | _=>simp [Below,python_leaf rfl hmp]

lemma iceberg_mapField (ht:isNilType t=false) (path:String)
 (m:NestedField×List MappingDiagnostic) : mapField (.mk a t) path=.ok m ↔
  ∃mapped,mapType t path=.ok mapped ∧
   ∃defaults,fieldDefaults a t path=.ok defaults ∧
    (.mk a.stableId a.name (isRequired a t) a.description mapped.type defaults.1 defaults.2,
     fieldDiagnostic a path mapped::mapped.children)=m := by
 cases t with
 | nil=>simp [isNilType] at ht
 | _=>simp only [mapField,bind_ok,refuse_ok,pure_ok]

lemma iceberg_leaf {mapped:MappedType}
 (hl:isLeaf t=true) (h:mapType t path=.ok mapped) :
 mapped.children=[] := by
 cases t with
 | primitive p kind=>
  rw [mapType,refuse_ok] at h
  cases kind <;> simp only [mapPrimitive,Except.ok.injEq,reduceCtorEq] at h
  all_goals rw [←h]
 | enum p enum=>
  rw [←Except.ok.inj h,mapEnumType]
  split <;> rfl
 | json p kind=>rw [←Except.ok.inj h];rfl
 | uuid p=>rw [←Except.ok.inj h];rfl
 | timestamp | duration | decimal | fixedBytes=>
  simp only [mapType,mapTimestampType,mapDurationType,
   mapDecimalType,mapFixedBytesType,bind_ok,pure_ok] at h
  obtain ⟨-,-,rfl⟩:=h
  rfl
 | nil | unset | struct | list | map=>cases hl

lemma iceberg_treeWalk : TreeWalk (Reports mapField) := by
 rintro a t path ps ht hp ⟨m,hm,rfl⟩
 obtain ⟨mapped,hmp,defaults,-,rfl⟩:=(iceberg_mapField ht path m).1 hm
 refine ⟨mapped.children.map MappingDiagnostic.fieldPath,by
  simp [fieldDiagnostic],?_⟩
 cases t with
 | struct p fields=>
  simp only [mapType,bind_ok,iceberg_mapFields,pure_ok] at hmp
  obtain ⟨-,⟨ms,hms,rfl⟩,rfl⟩:=hmp
  simp only [joinPath_eq hp] at hms
  simpa [Below] using forall₂_reports hms
 | list p element n=>
  simp only [mapType,bind_ok,pure_ok] at hmp
  obtain ⟨m,hel,rfl⟩:=hmp
  refine ⟨m,hel,?_⟩
  unfold mapListType
  split_ifs <;> rfl
 | map p key value=>
  simp only [mapType,bind_ok,precededBy_ok,pure_ok] at hmp
  obtain ⟨k,hk,v,hv,rfl⟩:=hmp
  exact ⟨_,_,⟨k,hk,rfl⟩,⟨v,hv,rfl⟩,by simp⟩
 | nil=>cases ht
 | unset p=>simp [mapType] at hmp
 | _=>simp [Below,iceberg_leaf rfl hmp]
end

/-! ### ClickHouse -/

section
open ClickHouseSchema
lemma clickHouse_openField (groups:CompilerState.GoMap String OneofGroup)
 (topLevel:Bool) (field:Field) (index:ℕ) (s:ScopeState) :
 (openField groups topLevel field index s).diagnostics=s.diagnostics := by
 unfold openField
 split
 · split_ifs <;> rfl
 · rfl

lemma clickHouse_mapScopeFields {groups:CompilerState.GoMap String OneofGroup}
 {topLevel:Bool} {index:ℕ} {s:ScopeState}
 (h:mapScopeFields groups path topLevel fields index s=.ok u) : ∃ms,Forall₂ (fun f m=>
   mapField f (joinPath path f.attributes.name)=.ok m) fields ms ∧
  u.diagnostics=s.diagnostics++ms.flatMap Prod.snd := by
 induction fields generalizing index s with
 | nil=>
  obtain rfl : s=u:=Except.ok.inj h
  exact ⟨[],.nil,by simp⟩
 | cons f rest ih=>
  simp only [mapScopeFields,bind_ok,precededBy_ok] at h
  obtain ⟨m,hm,h⟩:=h
  obtain ⟨ms,hms,hd⟩:=ih h
  refine ⟨m::ms,.cons hm hms,?_⟩
  rw [hd,closeField]
  simp [clickHouse_openField]

lemma clickHouse_mapScope {topLevel:Bool} (h:mapScope fields path topLevel=.ok u) :
 ∃ms,Forall₂ (fun f m=>
   mapField f (joinPath path f.attributes.name)=.ok m) fields ms ∧
  u.diagnostics=ms.flatMap Prod.snd := by
 simp only [mapScope,bind_ok] at h
 obtain ⟨groups,-,h⟩:=h
 simpa using clickHouse_mapScopeFields h

lemma clickHouse_mapPresence {field:MappedField} {diagnostics:List MappingDiagnostic}
 (h:mapPresence a t path mapped=.ok (field,diagnostics)) :
 diagnostics.map MappingDiagnostic.fieldPath =
  path::mapped.diagnostics.map MappingDiagnostic.fieldPath := by
 unfold mapPresence at h
 split at h
 all_goals try split_ifs at h
 all_goals
  simp only [bind_ok,rejectWhen_ok,exists_const,Except.ok.injEq,Prod.mk.injEq,reduceCtorEq] at h
 all_goals
  rw [←h.2.2]
  rfl

lemma clickHouse_leaf (hl:isLeaf t=true) (h:mapType t path=.ok mapped) :
 mapped.diagnostics=[] := by
 cases t with
 | enum p enum=>
  simp only [mapType,mapEnumType,bind_ok] at h
  obtain ⟨-,-,h⟩:=h
  split_ifs at h
  · rw [←(pure_ok _ _).1 h]
  · rw [←(pure_ok _ _).1 h]
 | uuid p=>rw [←Except.ok.inj h];rfl
 | primitive | timestamp | duration | json=>
  simp only [mapType,mapPrimitiveType,mapTimestampType,
   mapDurationType,mapJsonType,bind_ok,pure_ok] at h
  obtain ⟨-,-,rfl⟩:=h
  rfl
 | decimal | fixedBytes=>
  simp only [mapType,mapDecimalType,mapFixedBytesType,
   bind_ok,pure_ok] at h
  obtain ⟨-,-,-,-,rfl⟩:=h
  rfl
 | nil | unset | struct | list | map=>cases hl

lemma clickHouse_treeWalk : TreeWalk (Reports mapField) := by
 rintro a t path ps ht hph ⟨m,hm,rfl⟩
 simp only [mapField,bind_ok,refuseType] at hm
 obtain ⟨-,-,mapped,hmp,hp⟩:=hm
 refine ⟨mapped.diagnostics.map MappingDiagnostic.fieldPath,
  clickHouse_mapPresence hp,?_⟩
 replace hmp:=(mapError_ok _ _ _).1 hmp
 cases t with
 | struct p fields=>
  simp only [mapType,bind_ok,pure_ok] at hmp
  obtain ⟨groups,-,scope,hs,rfl⟩:=hmp
  obtain ⟨ms,hms,hd⟩:=clickHouse_mapScopeFields hs
  simp only [joinPath_eq hph] at hms
  obtain ⟨paths,hpt,heq⟩:=forall₂_reports hms
  refine ⟨paths,hpt,?_⟩
  rw [←heq,structType]
  split_ifs <;> simp [hd]
 | list p element n=>
  simp only [mapType,bind_ok,pure_ok] at hmp
  obtain ⟨-,-,m,hel,rfl⟩:=hmp
  exact ⟨m,hel,rfl⟩
 | map p key value=>
  simp only [mapType,bind_ok,precededBy_ok,mapMapType,pure_ok] at hmp
  obtain ⟨-,-,k,hk,v,hv,-,-,rfl⟩:=hmp
  exact ⟨_,_,⟨k,hk,rfl⟩,⟨v,hv,rfl⟩,by simp⟩
 | nil=>cases ht
 | unset p=>simp [mapType] at hmp
 | _=>simp [Below,clickHouse_leaf rfl hmp]
end

/-! ### The renderers with a walk of their own for diagnostics -/

lemma parquet_fieldDiagnostics (ht:isNilType t=false)
 (path:String) : ParquetSchema.fieldDiagnostics (.mk a t) path =
  ParquetSchema.nodeDiagnostic a t path::ParquetSchema.typeDiagnostics t path := by
 cases t with
 | nil=>simp [isNilType] at ht
 | _=>rfl

lemma postgres_addEmbedded (ht:isNilType t=false)
 (path:String) : PostgresSchema.addEmbedded (.mk a t) path =
  PostgresSchema.embeddedDiagnostic t path::PostgresSchema.nestedDiagnostics t path := by
 cases t with
 | nil=>simp [isNilType] at ht
 | _=>rfl

lemma postgres_embeddedDiagnostic (t:DataType) (path:String) :
 (PostgresSchema.embeddedDiagnostic t path).fieldPath=path := by
 simp only [PostgresSchema.embeddedDiagnostic]
 split_ifs <;> rfl

def Lists (call:Field → String → List MappingDiagnostic) (f:Field) (path:String)
  (ps:List String) : Prop :=
 ps=(call f path).map MappingDiagnostic.fieldPath

lemma forall₂_lists (call:Field → String → List MappingDiagnostic) (path:Field → String)
 (fields:List Field) : ∃paths,Forall₂ (fun f ps=>Lists call f (path f) ps) fields paths ∧
  (fields.flatMap fun f=>call f (path f)).map MappingDiagnostic.fieldPath =
   paths.flatten := by
 induction fields with
 | nil=>exact ⟨[],.nil,rfl⟩
 | cons f rest ih=>
  obtain ⟨paths,hp,heq⟩:=ih
  refine ⟨_::paths,.cons rfl hp,?_⟩
  rw [flatMap_cons,map_append,heq,flatten_cons]

lemma parquet_childDiagnostics (hp:path≠"") (fields:List Field) :
 ParquetSchema.childDiagnostics path fields=fields.flatMap fun f=>
  ParquetSchema.fieldDiagnostics f (path++"."++f.attributes.name) := by
 induction fields with
 | nil=>rfl
 | cons f rest ih=>rw [ParquetSchema.childDiagnostics,ih,joinPath_eq hp,flatMap_cons]

lemma postgres_addAllEmbedded (hp:path≠"") (fields:List Field) :
 PostgresSchema.addAllEmbedded path fields=fields.flatMap fun f=>
  PostgresSchema.addEmbedded f (path++"."++f.attributes.name) := by
 induction fields with
 | nil=>rfl
 | cons f rest ih=>rw [PostgresSchema.addAllEmbedded,ih,joinPath_eq hp,flatMap_cons]

lemma parquet_treeWalk : TreeWalk (Lists ParquetSchema.fieldDiagnostics) := by
 rintro a t path ps ht hp rfl
 rw [parquet_fieldDiagnostics ht]
 refine ⟨(ParquetSchema.typeDiagnostics t path).map MappingDiagnostic.fieldPath,by
  simp [ParquetSchema.nodeDiagnostic],?_⟩
 cases t with
 | struct p fields=>
  rw [ParquetSchema.typeDiagnostics,parquet_childDiagnostics hp]
  exact forall₂_lists _ _ fields
 | list p element n=>rfl
 | map p key value=>exact ⟨_,_,rfl,rfl,by simp [ParquetSchema.typeDiagnostics]⟩
 | _=>rfl

lemma postgres_treeWalk : TreeWalk (Lists PostgresSchema.addEmbedded) := by
 rintro a t path ps ht hp rfl
 rw [postgres_addEmbedded ht]
 refine ⟨(PostgresSchema.nestedDiagnostics t path).map MappingDiagnostic.fieldPath,by
  simp [postgres_embeddedDiagnostic],?_⟩
 cases t with
 | struct p fields=>
  rw [PostgresSchema.nestedDiagnostics,postgres_addAllEmbedded hp]
  exact forall₂_lists _ _ fields
 | list p element n=>rfl
 | map p key value=>exact ⟨_,_,rfl,rfl,by simp [PostgresSchema.nestedDiagnostics]⟩
 | _=>rfl

def Nested (f:Field) (path:String) (ps:List String) : Prop :=
 ∃ds,SqliteSchema.nestedField path f=.ok ds ∧ ps=ds.map MappingDiagnostic.fieldPath

lemma sqlite_nestedFields (h:SqliteSchema.nestedFields path fields=.ok ds) :
 ∃paths,Forall₂ (fun f ps=>Nested f (path++"."++f.attributes.name) ps) fields
  paths ∧ ds.map MappingDiagnostic.fieldPath=paths.flatten := by
 induction fields generalizing ds with
 | nil=>
  obtain rfl : []=ds:=Except.ok.inj h
  exact ⟨[],.nil,rfl⟩
 | cons f rest ih=>
  simp only [SqliteSchema.nestedFields,bind_ok,pure_ok] at h
  obtain ⟨own,how,others,ho,rfl⟩:=h
  obtain ⟨paths,hp,heq⟩:=ih ho
  exact ⟨_::paths,.cons ⟨own,how,rfl⟩ hp,by simp [heq]⟩

lemma sqlite_treeWalk : TreeWalk Nested := by
 rintro a t path ps ht hp ⟨ds,hds,rfl⟩
 simp only [SqliteSchema.nestedField,bind_ok,pure_ok] at hds
 obtain ⟨-,-,-,-,nested,hn,rfl⟩:=hds
 refine ⟨nested.map MappingDiagnostic.fieldPath,rfl,?_⟩
 cases t with
 | struct p fields=>exact sqlite_nestedFields hn
 | list p element n=>exact ⟨nested,hn,rfl⟩
 | map p key value=>
  simp only [SqliteSchema.nestedDiagnostics,bind_ok,pure_ok] at hn
  obtain ⟨ks,hks,vs,hvs,rfl⟩:=hn
  exact ⟨_,_,⟨ks,hks,rfl⟩,⟨vs,hvs,rfl⟩,by simp⟩
 | _=>
  obtain rfl : []=nested:=Except.ok.inj hn
  rfl

/-! ### Whole datasets -/

lemma joinPath_empty (child:String) : joinPath "" child=child := rfl

section
variable {dataset:DatasetSchema} {diagnostics:List MappingDiagnostic}
 (hdataset:∀f∈dataset.fields,Typed f ∧ f.attributes.name≠"")
include hdataset

/-- The diagnostics of a loop over the dataset's fields, with a mapper that walks the tree. -/
theorem reports_dataset (hw:TreeWalk (Reports call))
 (h:Forall₂ (fun f m=>call f f.attributes.name=.ok m) dataset.fields ms) :
 (ms.flatMap Prod.snd).map MappingDiagnostic.fieldPath=datasetPaths dataset := by
 obtain ⟨paths,hp,heq⟩:=forall₂_reports h
 rw [heq]
 exact hw.dataset hdataset hp

lemma arrow_paths (h:ArrowSchema.schema dataset=.ok (schema,diagnostics)) :
 diagnostics.map MappingDiagnostic.fieldPath=datasetPaths dataset := by
 simp only [ArrowSchema.schema,bind_ok,arrow_mapFields,joinPath_empty,pure_ok,Prod.mk.injEq] at h
 obtain ⟨-,⟨ms,hms,rfl⟩,-,rfl⟩:=h
 exact reports_dataset hdataset arrow_treeWalk hms

lemma python_paths (h:PythonArrow.arrowSchema uuidSupport dataset=.ok (schema,diagnostics)) :
 diagnostics.map MappingDiagnostic.fieldPath=datasetPaths dataset := by
 have hj:∀child,PythonArrow.joinPath "" child=child:=fun _=>rfl
 simp only [PythonArrow.arrowSchema,bind_ok,python_mapFields,hj,pure_ok,Prod.mk.injEq] at h
 obtain ⟨-,⟨ms,hms,rfl⟩,-,rfl⟩:=h
 exact reports_dataset hdataset (python_treeWalk uuidSupport) hms

lemma iceberg_paths {fields:List IcebergSchema.NestedField}
 (h:IcebergSchema.schema dataset=.ok (fields,diagnostics)) :
 diagnostics.map MappingDiagnostic.fieldPath=datasetPaths dataset := by
 simp only [IcebergSchema.schema,bind_ok,iceberg_mapFields,joinPath_empty,Prod.mk.injEq] at h
 obtain ⟨-,-,ms,hms,-,rfl⟩:=h
 exact reports_dataset hdataset iceberg_treeWalk hms

lemma clickHouse_paths {table:ClickHouseSchema.TableSchema}
 (h:ClickHouseSchema.schema dataset=.ok (table,diagnostics)) :
 diagnostics.map MappingDiagnostic.fieldPath=datasetPaths dataset := by
 simp only [ClickHouseSchema.schema,bind_ok,pure_ok,Prod.mk.injEq] at h
 obtain ⟨-,-,-,-,scope,hs,-,-,-,rfl⟩:=h
 obtain ⟨ms,hms,heq⟩:=clickHouse_mapScope hs
 rw [heq]
 simp only [joinPath_empty] at hms
 exact reports_dataset hdataset clickHouse_treeWalk hms

lemma parquet_paths {P:Type} {toParquet:String → ArrowSchema.Schema → Result P} {mapped:P}
 (h:ParquetSchema.schema toParquet dataset=.ok (mapped,diagnostics)) :
 diagnostics.map MappingDiagnostic.fieldPath=datasetPaths dataset := by
 simp only [ParquetSchema.schema,bind_ok,pure_ok,Prod.mk.injEq] at h
 obtain ⟨-,-,-,-,-,-,-,rfl⟩:=h
 obtain ⟨paths,hp,heq⟩:=forall₂_lists ParquetSchema.fieldDiagnostics
  (fun f=>f.attributes.name) dataset.fields
 rw [ParquetSchema.diagnostics,heq]
 exact parquet_treeWalk.dataset hdataset hp

lemma foldlM_reports {σ:Type} {Visits:Field → String → List String → Prop}
 {step:σ → Field → Mapping σ} {reported:σ → List MappingDiagnostic}
 (hst:∀s f u,Typed f → step s f=.ok u → ∃ps,Visits f f.attributes.name ps ∧
  (reported u).map MappingDiagnostic.fieldPath =
   (reported s).map MappingDiagnostic.fieldPath++ps) (hw:TreeWalk Visits) {s u:σ} (hs:reported s=[])
 (h:dataset.fields.foldlM step s=.ok u) :
 (reported u).map MappingDiagnostic.fieldPath=datasetPaths dataset := by
 have hl:∀(fields:List Field) (s:σ),(∀f∈fields,Typed f) →
   fields.foldlM step s=.ok u → ∃paths,
    Forall₂ (fun f ps=>Visits f f.attributes.name ps) fields paths ∧
    (reported u).map MappingDiagnostic.fieldPath =
     (reported s).map MappingDiagnostic.fieldPath++paths.flatten:=by
  intro fields
  induction fields with
  | nil=>
   intro s _ hs
   obtain rfl : s=u:=Except.ok.inj hs
   exact ⟨[],.nil,by simp⟩
  | cons f rest ih=>
   intro s hty hs
   obtain ⟨hf,hr⟩:=List.forall_mem_cons.1 hty
   rw [foldlM_cons,bind_ok] at hs
   obtain ⟨t,ht,hu⟩:=hs
   obtain ⟨ps,hps,ho⟩:=hst s f t hf ht
   obtain ⟨paths,hp,heq⟩:=ih t hr hu
   refine ⟨ps::paths,.cons hps hp,?_⟩
   rw [heq,ho,flatten_cons,append_assoc]
 obtain ⟨paths,hp,heq⟩:=hl dataset.fields s (fun f hf=>(hdataset f hf).1) h
 rw [heq,hs]
 exact hw.dataset hdataset hp

lemma postgres_paths {digest:String → String} {text:String}
 (h:PostgresSchema.ddl digest dataset=.ok (text,diagnostics)) :
 diagnostics.map MappingDiagnostic.fieldPath=datasetPaths dataset := by
 simp only [PostgresSchema.ddl,bind_ok,pure_ok,Prod.mk.injEq] at h
 obtain ⟨-,-,-,-,s,hs,-,-,-,-,-,rfl⟩:=h
 refine foldlM_reports hdataset (fun s f u hf hu=>?_) postgres_treeWalk rfl hs
 cases f with
 | nil=>exact absurd (hf _ (.self _)).1 (by simp [Field.isNil])
 | mk a t=>
  simp only [PostgresSchema.addColumn,bind_ok,pure_ok] at hu
  obtain ⟨-,-,-,-,-,-,-,-,-,-,-,-,rfl⟩:=hu
  refine ⟨_,rfl,?_⟩
  rw [Field.attributes_mk,postgres_addEmbedded (typed_mk.1 hf).1]
  simp [postgres_embeddedDiagnostic]

lemma sqlite_paths {text:String} (h:SqliteSchema.ddl dataset=.ok (text,diagnostics)) :
 diagnostics.map MappingDiagnostic.fieldPath=datasetPaths dataset := by
 simp only [SqliteSchema.ddl,bind_ok,pure_ok,Prod.mk.injEq] at h
 obtain ⟨-,-,-,-,-,-,s,hs,-,rfl⟩:=h
 refine foldlM_reports hdataset (fun s f u hf hu=>?_) sqlite_treeWalk rfl hs
 cases f with
 | nil=>exact absurd (hf _ (.self _)).1 (by simp [Field.isNil])
 | mk a t=>
  simp only [SqliteSchema.addColumn,bind_ok,refuse_ok,pure_ok] at hu
  obtain ⟨-,-,-,-,-,-,-,-,mapped,hm,-,-,nested,hn,rfl⟩:=hu
  refine ⟨_,⟨SqliteSchema.nestedDiagnostic a.name::nested,?_,rfl⟩,?_⟩
  · simp only [SqliteSchema.nestedField,bind_ok,rejectIf_ok,wrap_ok,pure_ok]
    exact ⟨(),by simp [(typed_mk.1 hf).1],mapped,hm,nested,hn,rfl⟩
  · simp [SqliteSchema.nestedDiagnostic]
end

/-! ### Compiled datasets -/

lemma compiledField_typed {files:Files} {hi:CompilerHistory} {field:Field} {fuel:ℕ}
 {stack:List String} {slot:Slot} {parentPath:List UInt32}
 (h:CompiledField files hi field fuel stack slot parentPath parent) : Typed field := by
 refine CompiledField.induction (P := fun _ _ _ f=>Typed f) (fun slot parentPath parent a t node hc=>?_) h
 refine typed_mk.2 ⟨?_,fun f hf=>?_⟩
 · cases slotForm_of_shape node.shape with
   | leaf hl _ _=>cases t with
    | nil=>simp [isLeaf] at hl
    | _=>rfl
   | _=>rfl
 · obtain ⟨-,-,hf⟩:=forall₂_mem_right hc hf
   exact hf

lemma compiled_typed {m:Descriptor} {previous:Option DatasetSchema} {d:DatasetSchema}
 (h:compileMessage m previous=.ok d) : ∀f∈d.fields,Typed f ∧ f.attributes.name≠"" := by
 intro f hf
 obtain ⟨c,v,C⟩:=compileMessage_ok.1 h
 obtain ⟨slot,-,hc⟩:=forall₂_mem_right (compiledFields_forall₂.1 C.tree) hf
 exact ⟨compiledField_typed hc,(validateStorageNameCollisions_ok.1 C.collisions).1 f hf⟩

inductive Renderer where
 | arrow
 | parquet
 | iceberg
 | postgres
 | sqlite
 | clickHouse
 | pythonArrow

/-- What the renderers take from the libraries they call: the digest in shortened Postgres
  identifiers, the Parquet schema of an Arrow schema, and whether PyArrow has a UUID type. -/
structure Libraries (P:Type) where
 digest : String → String
 toParquet : String → ArrowSchema.Schema → Result P
 uuidSupport : Bool

def reported {E A:Type} : Except E (A×List MappingDiagnostic) → Option (List MappingDiagnostic)
 | .ok (_,diagnostics)=>some diagnostics
 | .error _=>none

lemma reported_eq_some {call:Except E (A×List MappingDiagnostic)} {diagnostics:List MappingDiagnostic} :
 reported call=some diagnostics ↔ ∃mapped,call=.ok (mapped,diagnostics) := by
 cases call with
 | error err=>simp [reported]
 | ok result=>simp [reported,Prod.ext_iff]

section
variable {P:Type} (libraries:Libraries P)
def Renderer.diagnostics (dataset:DatasetSchema) : Renderer → Option (List MappingDiagnostic)
 | .arrow=>reported (ArrowSchema.schema dataset)
 | .parquet=>reported (ParquetSchema.schema libraries.toParquet dataset)
 | .iceberg=>reported (IcebergSchema.schema dataset)
 | .postgres=>reported (PostgresSchema.ddl libraries.digest dataset)
 | .sqlite=>reported (SqliteSchema.ddl dataset)
 | .clickHouse=>reported (ClickHouseSchema.schema dataset)
 | .pythonArrow=>reported (PythonArrow.arrowSchema libraries.uuidSupport dataset)

lemma Renderer.paths {dataset:DatasetSchema}
 (hdataset:∀f∈dataset.fields,Typed f ∧ f.attributes.name≠"") {renderer:Renderer}
 {diagnostics:List MappingDiagnostic} (h:renderer.diagnostics libraries dataset=some diagnostics) :
 diagnostics.map MappingDiagnostic.fieldPath=datasetPaths dataset := by
 cases renderer with
 | arrow=>obtain ⟨_,h⟩:=reported_eq_some.1 h;exact arrow_paths hdataset h
 | parquet=>obtain ⟨_,h⟩:=reported_eq_some.1 h;exact parquet_paths hdataset h
 | iceberg=>obtain ⟨_,h⟩:=reported_eq_some.1 h;exact iceberg_paths hdataset h
 | postgres=>obtain ⟨_,h⟩:=reported_eq_some.1 h;exact postgres_paths hdataset h
 | sqlite=>obtain ⟨_,h⟩:=reported_eq_some.1 h;exact sqlite_paths hdataset h
 | clickHouse=>obtain ⟨_,h⟩:=reported_eq_some.1 h;exact clickHouse_paths hdataset h
 | pythonArrow=>obtain ⟨_,h⟩:=reported_eq_some.1 h;exact python_paths hdataset h

/-- Any two renderers that accept a compiled dataset report on the same nodes in the same order:
  one diagnostic for each node of the tree, in pre-order. -/
theorem renderers_report_alike {m:Descriptor} {previous:Option DatasetSchema} {d:DatasetSchema}
  (h:compileMessage m previous=.ok d) : (∀(renderer:Renderer) (diagnostics:List MappingDiagnostic),
   renderer.diagnostics libraries d=some diagnostics →
    diagnostics.map MappingDiagnostic.fieldPath=datasetPaths d) ∧
  ∀(one other:Renderer) (diagnostics others:List MappingDiagnostic),
   one.diagnostics libraries d=some diagnostics →
   other.diagnostics libraries d=some others →
    diagnostics.map MappingDiagnostic.fieldPath=others.map MappingDiagnostic.fieldPath := by
 have hp:=fun renderer diagnostics=>
  @Renderer.paths P libraries d (compiled_typed h) renderer diagnostics
 refine ⟨hp,fun one other diagnostics others hon ho=>?_⟩
 rw [hp one diagnostics hon,hp other others ho]
end

def sampleLibraries : Libraries ArrowSchema.Schema where
 digest:=id
 toParquet:=fun _ schema=>.ok schema
 uuidSupport:=true

theorem order_reported_alike : ∃diagnostics others,
  Renderer.postgres.diagnostics sampleLibraries orderDataset=some diagnostics ∧
  Renderer.clickHouse.diagnostics sampleLibraries orderDataset=some others ∧
  diagnostics.map MappingDiagnostic.fieldPath=others.map MappingDiagnostic.fieldPath ∧
  diagnostics.map MappingDiagnostic.fieldPath=["items","items[]","items[].sku","note"] := by
 obtain ⟨diagnostics,hd⟩:=Option.isSome_iff_exists.1
  (show (Renderer.postgres.diagnostics sampleLibraries orderDataset).isSome=true by
   decide +kernel)
 obtain ⟨others,ho⟩:=Option.isSome_iff_exists.1
  (show (Renderer.clickHouse.diagnostics sampleLibraries orderDataset).isSome=true by
   decide +kernel)
 obtain ⟨hp,ha⟩:=renderers_report_alike sampleLibraries orderDataset_eq
 refine ⟨diagnostics,others,hd,ho,
  ha .postgres .clickHouse _ _ hd ho,?_⟩
 rw [hp .postgres diagnostics hd]
 decide +kernel
end InvariantProtocol.RendererPaths
