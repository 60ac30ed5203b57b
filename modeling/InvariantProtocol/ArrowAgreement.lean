import InvariantProtocol.RendererPaths
namespace InvariantProtocol.ArrowAgreement
open GoResult DataSchema DataCompiler DataMapping FieldTree EnumMetadata ArrowSchema RendererPaths
open ClickHouseSchema (isNilType)
open List hiding length map

/-- The same value under every key: the libraries keep the entries in orders of their own. -/
def SameMetadata (m n:Metadata) : Prop :=
 ∀key,m.lookup key=n.lookup key

mutual

def SameField : ArrowField → ArrowField → Prop
 | .mk name type nullable metadata,.mk name' type' nullable' metadata' =>
  name=name' ∧ SameType type type' ∧ nullable=nullable' ∧ SameMetadata metadata metadata'

def SameType : ArrowType → ArrowType → Prop
 | .struct fields,.struct fields' => SameFields fields fields'
 | .list element,.list element' => SameField element element'
 | .fixedSizeList length element,.fixedSizeList length' element' =>
  length=length' ∧ SameField element element'
 | .map key value,.map key' value' => SameField key key' ∧ SameField value value'
 | type,type' => type=type'

def SameFields : List ArrowField → List ArrowField → Prop
 | [],[]=>True
 | field::rest,field' :: rest' => SameField field field' ∧ SameFields rest rest'
 | _,_=>False
end

def SameSchema (s t:Schema) : Prop :=
 SameFields s.fields t.fields ∧ SameMetadata s.metadata t.metadata

/-- The values of an enum node have names, and no markup characters in names or descriptions. -/
def PlainNode (f:Field) : Prop :=
 ∀p enum,f.type=.enum p enum → ∀value∈enum.values,Plain value

def PlainEnums (dataset:DatasetSchema) : Prop :=
 ∀f∈dataset.fields,∀g,FieldWithin f g → PlainNode g

/-! ### Metadata -/

lemma presenceName_ok {presence:Presence} {name:String}
 (h:PythonArrow.presenceName presence=.ok name) : Presence.text presence=name := by
 cases presence with
 | unrecognized number=>simp [PythonArrow.presenceName] at h
 | _=>exact Except.ok.inj h

variable {t:DataType} {a:FieldAttributes} {metadata:Metadata} {mapped mapped':MappedType}
/-- The two field metadata differ in the encoding of enum values only. -/
theorem fieldMetadata_parts (h:PythonArrow.fieldMetadata a t=.ok metadata) :
 ∃base : Metadata,base.lookup "invariant.enum.values" = none ∧
  fieldMetadata a t=base++enumMetadata goEnumValues t ∧
  metadata=base++enumMetadata pythonEnumValues t := by
 simp only [PythonArrow.fieldMetadata,bind_ok,pure_ok] at h
 obtain ⟨name,hn,rfl⟩:=h
 have ht:PythonArrow.logicalTypeName t=logicalTypeName t:=by cases t <;> rfl
 rw [←presenceName_ok hn,ht]
 refine ⟨_,?_,rfl,rfl⟩
 rw [lookup_append,Option.or_eq_none_iff]
 constructor
 · rw [lookup_eq_none_iff]
   intro entry hen
   have hm:=mem_of_mem_filter hen
   simp only [mem_cons,not_mem_nil,or_false] at hm
   rcases hm with rfl|rfl|rfl|rfl|rfl|rfl|rfl|rfl|rfl|rfl|rfl <;>
    simp only <;> decide
 · unfold defaultMetadata
   split <;> rfl

lemma fieldMetadata_same_iff (h:PythonArrow.fieldMetadata a t=.ok metadata) :
 SameMetadata (fieldMetadata a t) metadata ↔ PlainNode (.mk a t) := by
 obtain ⟨base,hb,hgo,rfl⟩:=fieldMetadata_parts h
 rw [hgo]
 cases t with
 | enum p enum=>
  have hl:∀encode,(base++enumMetadata encode (.enum p enum)).lookup
    "invariant.enum.values" = some (encode enum.values):=by
   intro encode
   rw [lookup_append,hb,Option.none_or]
   rfl
  have hp:PlainNode (.mk a (.enum p enum)) ↔ ∀value∈enum.values,Plain value:=by
   simp [PlainNode,Field.type]
  rw [hp,←enumValues_eq_iff]
  constructor
  · intro hs
    have hen:=hs "invariant.enum.values"
    rw [hl,hl] at hen
    exact Option.some.inj hen
  · intro heq key
    rw [enumMetadata,enumMetadata,heq]
 | _=>simp [SameMetadata,enumMetadata,PlainNode,Field.type]

/-! ### Types -/

lemma mapPrimitive_same {kind:PrimitiveKind} {type type':ArrowType}
 (h:ArrowSchema.mapPrimitive kind=.ok type) (h':PythonArrow.mapPrimitive kind=.ok type') :
 SameType type type' := by
 cases kind with
 | unspecified=>simp [ArrowSchema.mapPrimitive] at h
 | unrecognized number=>simp [ArrowSchema.mapPrimitive] at h
 | _=>simp [←Except.ok.inj h,←Except.ok.inj h',SameType]

lemma leaf_same {uuidSupport:Bool} {path path':String}
 (hl:CompilerWalk.isLeaf t=true) (h:ArrowSchema.mapType t path=.ok mapped)
 (h':PythonArrow.mapType uuidSupport t path'=.ok mapped') : SameType mapped.type mapped'.type := by
 cases t with
 | primitive p kind=>
  simp only [ArrowSchema.mapType,ArrowSchema.mapPrimitiveType,bind_ok,refuse_ok,pure_ok] at h
  simp only [PythonArrow.mapType,PythonArrow.mapPrimitiveType,bind_ok,pure_ok] at h'
  obtain ⟨type,ht,rfl⟩:=h
  obtain ⟨type',ht',rfl⟩:=h'
  exact mapPrimitive_same ht ht'
 | enum p enum=>
  rw [←Except.ok.inj h,←Except.ok.inj h',PythonArrow.mapEnumType,mapEnumType]
  split <;> simp [SameType,lossless]
 | timestamp p unit timezone=>
  simp only [ArrowSchema.mapType,mapTimestampType,bind_ok,pure_ok] at h
  simp only [PythonArrow.mapType,PythonArrow.mapTimestampType,bind_ok,pure_ok] at h'
  obtain ⟨-,-,rfl⟩:=h
  obtain ⟨-,-,rfl⟩:=h'
  simp [SameType]
 | duration p unit=>
  simp only [ArrowSchema.mapType,mapDurationType,bind_ok,pure_ok] at h
  simp only [PythonArrow.mapType,PythonArrow.mapDurationType,bind_ok,pure_ok] at h'
  obtain ⟨-,-,rfl⟩:=h
  obtain ⟨-,-,rfl⟩:=h'
  simp [SameType]
 | json p kind=>
  simp only [PythonArrow.mapType,PythonArrow.mapJsonType,bind_ok,pure_ok] at h'
  obtain ⟨-,-,rfl⟩:=h'
  simp [←Except.ok.inj h,SameType,mapJsonType]
 | decimal p precision scale=>
  simp only [ArrowSchema.mapType,mapDecimalType,RendererRules.decimalParameters,bind_ok,refuse_ok,
   pure_ok] at h
  simp only [PythonArrow.mapType,PythonArrow.mapDecimalType,PythonArrow.decimalParameters,bind_ok,
   pure_ok] at h'
  obtain ⟨-,⟨-,-,-,-,rfl⟩,rfl⟩:=h
  obtain ⟨-,⟨-,-,-,-,rfl⟩,rfl⟩:=h'
  simp [SameType]
 | uuid p=>
  simp only [PythonArrow.mapType,PythonArrow.mapUuidType,bind_ok,pure_ok] at h'
  obtain ⟨-,-,rfl⟩:=h'
  simp [←Except.ok.inj h,SameType,mapUuidType]
 | fixedBytes p byteLength=>
  simp only [ArrowSchema.mapType,mapFixedBytesType,RendererRules.fixedByteWidth,bind_ok,refuse_ok,
   pure_ok] at h
  simp only [PythonArrow.mapType,PythonArrow.mapFixedBytesType,PythonArrow.fixedBytesLength,bind_ok,
   pure_ok] at h'
  obtain ⟨width,⟨-,-,-,-,hw⟩,rfl⟩:=h
  obtain ⟨width',⟨-,-,hw'⟩,rfl⟩:=h'
  simp [SameType,←hw,←hw']
 | nil | unset | struct | list | map=>cases hl

lemma mapListType_same_iff {n:ℕ} {path path':String} {element element':ArrowField}
 {ds ds':List MappingDiagnostic} (h:mapListType n path element ds=.ok mapped)
 (h':PythonArrow.mapListType n path' element' ds'=.ok mapped') : SameType mapped.type mapped'.type ↔
  SameField (element.withName "item") (element'.withName "item") := by
 unfold mapListType at h
 unfold PythonArrow.mapListType at h'
 split_ifs at h h' with hn
 · simp only [bind_ok,pure_ok] at h h'
   obtain ⟨-,-,rfl⟩:=h
   obtain ⟨-,-,rfl⟩:=h'
   simp [SameType]
 · simp [←Except.ok.inj h,←Except.ok.inj h',lossless,SameType]

/-! ### The tree -/

section
variable {uuidSupport:Bool}
structure Mapped (uuidSupport:Bool) (f:Field) (go python:ArrowField) : Prop where
 go : ∃path ds,ArrowSchema.mapField f path=.ok (go,ds)
 python : ∃path ds,PythonArrow.mapField uuidSupport f path=.ok (python,ds)

variable {go python:ArrowField}
lemma not_mapped_nil : ¬ Mapped uuidSupport .nil go python := by
 rintro ⟨⟨path,ds,hgo⟩,-⟩
 simp [ArrowSchema.mapField] at hgo

lemma mapped_mk {a:FieldAttributes} {t:DataType} (h:Mapped uuidSupport (.mk a t) go python) :
 ∃path path' mapped mapped' metadata,ArrowSchema.mapType t path=.ok mapped ∧
  PythonArrow.mapType uuidSupport t path'=.ok mapped' ∧
  PythonArrow.fieldMetadata a t=.ok metadata ∧
  go=.mk a.name mapped.type a.nullable (fieldMetadata a t) ∧
  python=.mk a.name mapped'.type a.nullable metadata := by
 obtain ⟨⟨path,ds,hgo⟩,⟨path',ds',hp⟩⟩:=h
 have ht:isNilType t=false:=by
  cases t with
  | nil=>simp [ArrowSchema.mapField] at hgo
  | _=>rfl
 obtain ⟨mapped,hmp,hgo⟩:=(arrow_mapField ht _ _).1 hgo
 obtain ⟨mapped',hm',metadata,hm,hp⟩:=(python_mapField ht _ _).1 hp
 exact ⟨path,path',mapped,mapped',metadata,hmp,hm',hm,
  (congrArg Prod.fst hgo).symm,(congrArg Prod.fst hp).symm⟩

lemma Mapped.renamed {f:Field} (h:Mapped uuidSupport f go python) (name:String) :
 (SameField (go.withName name) (python.withName name) ↔ SameField go python) ∧
  (SameField (go.withName name).nonNull (python.withName name).nonNull ↔
   SameField go python) := by
 cases f with
 | nil=>exact absurd h not_mapped_nil
 | mk a t=>
  obtain ⟨_,_,_,_,_,-,-,-,rfl,rfl⟩:=mapped_mk h
  simp [ArrowField.withName,ArrowField.nonNull,SameField]

lemma sameFields_iff {P:Field → Prop} {fields:List Field} {gos pythons:List ArrowField}
 (hgo:Forall₂ (fun f go=>∃path ds,ArrowSchema.mapField f path=.ok (go,ds)) fields gos)
 (hp:Forall₂ (fun f python=>∃path ds,
  PythonArrow.mapField uuidSupport f path=.ok (python,ds)) fields pythons)
 (h:∀f∈fields,∀go python,Mapped uuidSupport f go python →
  (SameField go python ↔ P f)) : SameFields gos pythons ↔ ∀f∈fields,P f := by
 induction hgo generalizing pythons with
 | nil=>
  cases hp
  simp [SameFields]
 | cons hf _ ih=>
  cases hp with
  | cons hf' hr' =>
   obtain ⟨ho,hr⟩:=List.forall_mem_cons.1 h
   rw [SameFields,ho _ _ ⟨hf,hf'⟩,ih hr' hr,forall_mem_cons]

lemma forall₂_fst {E:Type} {call:Field → String → Except E (ArrowField×List MappingDiagnostic)}
 {path:Field → String} {fields:List Field} {ms:List (ArrowField×List MappingDiagnostic)}
 (h:Forall₂ (fun f m=>call f (path f)=.ok m) fields ms) :
 Forall₂ (fun f mapped=>∃path ds,call f path=.ok (mapped,ds)) fields (ms.map Prod.fst) := by
 rw [forall₂_map_right_iff]
 exact h.imp fun f m hm=>⟨path f,m.2,hm⟩

lemma field_same_iff (f:Field) : ∀go python,Mapped uuidSupport f go python →
 (SameField go python ↔ ∀g,FieldWithin f g → PlainNode g) := by
 induction f using Field.tree_induction with
 | hnil=>
  intro go python h
  exact absurd h not_mapped_nil
 | hmk a t ih=>
  intro go python h
  obtain ⟨path,path',mapped,mapped',metadata,hgo,hp,hmt,rfl,rfl⟩:=mapped_mk h
  rw [forall_within_mk,SameField,fieldMetadata_same_iff hmt]
  -- the types agree exactly when the nodes below do
  have ht:SameType mapped.type mapped'.type ↔
    ∀f∈t.children,∀g,FieldWithin f g → PlainNode g:=by
   cases t with
   | struct p fields=>
    simp only [ArrowSchema.mapType,bind_ok,arrow_mapFields,pure_ok] at hgo
    simp only [PythonArrow.mapType,bind_ok,python_mapFields,pure_ok] at hp
    obtain ⟨-,⟨ms,hms,rfl⟩,rfl⟩:=hgo
    obtain ⟨-,⟨ms',hs',rfl⟩,rfl⟩:=hp
    exact sameFields_iff (forall₂_fst hms) (forall₂_fst hs') ih
   | list p element n=>
    simp only [ArrowSchema.mapType,bind_ok] at hgo
    simp only [PythonArrow.mapType,bind_ok] at hp
    obtain ⟨m,hm,hgo⟩:=hgo
    obtain ⟨m',hm',hp⟩:=hp
    have hmp:Mapped uuidSupport element m.1 m'.1:=⟨⟨_,_,hm⟩,⟨_,_,hm'⟩⟩
    rw [mapListType_same_iff hgo hp,(hmp.renamed "item").1,ih element mem_cons_self _ _ hmp]
    simp [DataType.children]
   | map p key value=>
    simp only [ArrowSchema.mapType,bind_ok,precededBy_ok,pure_ok] at hgo
    simp only [PythonArrow.mapType,bind_ok,pure_ok] at hp
    obtain ⟨k,hk,v,hv,rfl⟩:=hgo
    obtain ⟨k',hk',v',hv',rfl⟩:=hp
    have hky:Mapped uuidSupport key k.1 k'.1:=⟨⟨_,_,hk⟩,⟨_,_,hk'⟩⟩
    have hvalue:Mapped uuidSupport value v.1 v'.1:=⟨⟨_,_,hv⟩,⟨_,_,hv'⟩⟩
    simp only [lossless,SameType,DataType.children,forall_mem_cons,
     (hky.renamed "key").2,(hvalue.renamed "value").1]
    rw [ih key (by simp [DataType.children]) _ _ hky,
     ih value (by simp [DataType.children]) _ _ hvalue]
    simp
   | nil | unset=>simp [ArrowSchema.mapType] at hgo
   | _=>
    have hs:=leaf_same rfl hgo hp
    simp [hs,DataType.children]
  rw [ht]
  tauto
end

/-- The Arrow schemas of Go and Python, where there are both, agree exactly when the values of
  every enum in the dataset have names and are free of the characters `json.Marshal` escapes
  and `json.dumps` does not. -/
theorem arrow_schemas_agree_iff {uuidSupport:Bool} {dataset:DatasetSchema} {go python:Schema}
  {ds ds':List MappingDiagnostic} (hgo:ArrowSchema.schema dataset=.ok (go,ds))
  (hpython:PythonArrow.arrowSchema uuidSupport dataset=.ok (python,ds')) :
  SameSchema go python ↔ PlainEnums dataset := by
 simp only [ArrowSchema.schema,bind_ok,arrow_mapFields,pure_ok,Prod.mk.injEq] at hgo
 simp only [PythonArrow.arrowSchema,bind_ok,python_mapFields,pure_ok,Prod.mk.injEq] at hpython
 obtain ⟨-,⟨ms,hms,rfl⟩,rfl,-⟩:=hgo
 obtain ⟨-,⟨ms',hm',rfl⟩,rfl,-⟩:=hpython
 have hm:SameMetadata (schemaMetadata dataset) (schemaMetadata dataset):=fun _=>rfl
 have hf:=sameFields_iff (forall₂_fst hms) (forall₂_fst hm') fun f _=>field_same_iff f
 rw [SameSchema]
 exact ⟨fun h=>hf.1 h.1,fun h=>⟨hf.2 h,hm⟩⟩

def parcels (description:String) : DatasetSchema where
 sourceMessage := "shop.Parcel"
 name := "shop__parcel"
 description := ""
 fields:=[.mk
  { protoFullName := "shop.Parcel.size",protoNumberPath:=[1],name := "size",stableId:=1,
    presence:=.implicit,nullable:=false,syntheticRole:=.protoField,jsonName := "size" }
  (.enum "" ⟨"shop.Size",[⟨"SMALL",0,description⟩],false⟩)]
 lastFieldId:=1
 retiredFields:=[]

theorem small_parcels_agree : ∃go python ds ds',
  ArrowSchema.schema (parcels "up to 2 kg")=.ok (go,ds) ∧
  PythonArrow.arrowSchema true (parcels "up to 2 kg")=.ok (python,ds') ∧
  SameSchema go python := by
 refine ⟨_,_,_,_,rfl,rfl,(@arrow_schemas_agree_iff true (parcels "up to 2 kg") _ _ _ _ rfl
  rfl).2 fun f hf g hg=>?_⟩
 obtain rfl:=List.mem_singleton.1 hf
 cases hg with
 | self=>
  rintro p enum ⟨⟩
  decide
 | child hc _=>simp [DataType.children] at hc

theorem light_parcels_disagree : ∃go python ds ds',
  ArrowSchema.schema (parcels "weight < 2 kg")=.ok (go,ds) ∧
  PythonArrow.arrowSchema true (parcels "weight < 2 kg")=.ok (python,ds') ∧
  ¬ SameSchema go python := by
 refine ⟨_,_,_,_,rfl,rfl,?_⟩
 rintro ⟨hf,-⟩
 obtain ⟨-,-,-,hm⟩:=hf.1
 exact absurd (hm "invariant.enum.values") (by decide)
end InvariantProtocol.ArrowAgreement
