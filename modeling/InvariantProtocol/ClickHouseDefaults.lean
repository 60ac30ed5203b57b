import InvariantProtocol.ClickHouseConstraints
namespace InvariantProtocol.ClickHouseDefaults
open List ListRelations GoResult DataSchema DataMapping ProtoDescriptor
open DataCompiler CompiledTree CompileOutcome
open ClickHouseSchema SqlType SqlValue SqlExpr SqlEval LogicalRow ClickHouseChecks
open StoredShape ClickHouseLayout StoredScope ClickHouseConstraints

section
variable (validJSON:List UInt8 → Bool)
/-- A DEFAULT expression takes the type of its column; of the numbers only 0 becomes a float. -/
def convertDefault : ColumnType → Value → Option Value
 | .base .float32,.scalar (.int 0)=>some (.scalar (.float 0))
 | .base .float64,.scalar (.int 0)=>some (.scalar (.float 0))
 | c,v=>if admits c v then some v else none

def storedDefault (c:ColumnType) (expression:String) : Option Value :=
 if expression = "" then some (typeDefault c)
 else (evalText validJSON [] expression).bind (convertDefault c)

def columnDefault (column:Column) : Option Value:=do
 let c ← parseType column.type
 storedDefault validJSON c column.defaultExpression

def defaultRow (table:TableSchema) : Option (List Value) :=
 table.columns.mapM (columnDefault validJSON)

lemma convertDefault_typeDefault (c:ColumnType) :
 convertDefault c (typeDefault c)=some (typeDefault c) := by
 unfold convertDefault
 split
 · next h=>cases h
 · next h=>cases h
 · exact if_pos (admits_default _)

lemma storedDefault_of_render {c:ColumnType} {e:Expr} (hw:e.WellFormed) (hne:e.render≠"")
 (he:eval validJSON [] e=some (typeDefault c)) :
 storedDefault validJSON c e.render=some (typeDefault c) := by
 rw [storedDefault,if_neg hne,evalText_render validJSON [] e hw,he]
 exact convertDefault_typeDefault c

lemma storedDefault_zero {b:BaseType} (hb:baseDefault b=.int 0 ∨ baseDefault b=.float 0) :
 storedDefault validJSON (.base b) "0" = some (typeDefault (.base b)) := by
 have hz:evalText validJSON [] "0" = some (integer 0):=
  evalText_render validJSON [] (.int 0) trivial
 rw [storedDefault,if_neg (by decide),hz]
 cases b <;> simp [baseDefault] at hb <;> rfl

lemma storedDefault_false : storedDefault validJSON (.base .bool) "false" =
 some (typeDefault (.base .bool)) :=
 storedDefault_of_render validJSON (e := .bool false) trivial (by decide) rfl

lemma storedDefault_text : storedDefault validJSON (.base .string) "''" =
 some (typeDefault (.base .string)) :=
 storedDefault_of_render validJSON (e := .text "") trivial (by decide) rfl

lemma storedDefault_primitive {kind:PrimitiveKind} {p:String} (h:MappableType (.primitive p kind)) :
 storedDefault validJSON (.base (primitiveColumn kind)) (implicitDefault (.primitive p kind)) =
  some (typeDefault (.base (primitiveColumn kind))) := by
 obtain ⟨hs,hr⟩:=h
 cases kind with
 | bool=>exact storedDefault_false validJSON
 | string=>exact storedDefault_text validJSON
 | bytes=>exact storedDefault_text validJSON
 | unspecified=>exact absurd rfl hs
 | unrecognized number=>exact absurd rfl (hr number)
 | _=>exact storedDefault_zero validJSON (by decide)

lemma storedDefault_field {field:Field} (h:MappableField field) :
 storedDefault validJSON (fieldColumn field) (fieldDefault field) =
  some (typeDefault (fieldColumn field)) := by
 cases field with
 | nil=>exact h.elim
 | mk a t=>
  obtain ⟨hok,hm⟩:=h
  rw [fieldColumn,fieldDefault]
  unfold PresenceOk at hok
  unfold presenceColumn presenceDefault
  split at hok
  · next hp=>
    rw [hp]
    cases t with
    | primitive p kind=>exact storedDefault_primitive validJSON hm
    | enum p enum=>exact storedDefault_zero validJSON (.inl rfl)
    | _=>cases hok
  · next hp=>rw [hp];rfl
  · next hp=>
    obtain ⟨p,element,n,rfl⟩:=hok
    rw [hp]
    by_cases hn : n=0
    · simp only [hn,if_pos]
      exact storedDefault_of_render validJSON (e := .emptyArray) trivial (by decide) rfl
    · simp only [hn,if_false]
      rfl
  · next hp=>
    obtain ⟨p,key,value,rfl⟩:=hok
    rw [hp]
    exact storedDefault_of_render validJSON (e := .emptyMap) trivial (by decide) rfl
  · next hp=>
    rw [hp]
    by_cases hc : isComposite t=true
    · simp only [hc,if_true]
      rfl
    · simp only [hc]
      exact storedDefault_of_render validJSON (e := .null) trivial (by decide) rfl
  · next hp=>rw [hp];rfl
  · next hp=>rw [hp];rfl
  · exact hok.elim

lemma tableEntries_default {fields:List Field} (h:∀f∈fields,MappableField f) : ∀e∈tableEntries fields,
  e.2.1.WellFormed ∧ storedDefault validJSON e.2.1 e.2.2=some (typeDefault e.2.1) :=
 forall_mem_structEntries
  (P := fun e : ColumnEntry=>e.1.WellFormed ∧ storedDefault validJSON e.1 e.2=some (typeDefault e.1))
  ⟨trivial,storedDefault_false validJSON⟩ ⟨trivial,storedDefault_zero validJSON (.inl rfl)⟩
  fun f hf=>⟨fieldColumn_wellFormed f,storedDefault_field validJSON (h f hf)⟩

lemma defaultRow_eq {fields:List Field} {table:TableSchema} (h:TableWritten fields table) :
 defaultRow validJSON table=some (defaults ((tableColumns fields).map Prod.snd)) := by
 have hen:=tableEntries_default validJSON (mappableFields_iff.1 h.mappable)
 have hc:=congrArg (List.map Prod.snd) h.columns
 simp only [map_map,Function.comp_def,columnText] at hc
 have hv:Forall₂ (fun e w=>
   ((parseType e.1).bind fun c=>storedDefault validJSON c e.2)=some w)
   (table.columns.map fun c=>(c.type,c.defaultExpression))
   ((tableEntries fields).map fun e=>typeDefault e.2.1):=by
  rw [hc,forall₂_map_left_iff,forall₂_map_right_iff,forall₂_same]
  intro e he
  obtain ⟨hwf,hd⟩:=hen e he
  simpa [parseType_render e.2.1 hwf] using hd
 rw [forall₂_map_left_iff] at hv
 rw [defaultRow,mapM_eq_some,defaults_eq,tableColumns_eq,map_map,map_map]
 exact hv
end

section

/-- The value protobuf gives to an implicit field that was never set. -/
def zeroValue : PrimitiveKind → Scalar
 | .bool=>.bool false
 | .double | .float=>.float 0
 | .string | .bytes | .unspecified | .unrecognized _=>.bytes []
 | _=>.int 0

lemma baseDefault_primitiveColumn (kind:PrimitiveKind) :
 baseDefault (primitiveColumn kind)=zeroValue kind := by
 cases kind <;> rfl

def emptyValue : Presence → DataType → Option Logical
 | .implicit,.primitive _ kind=>some (.scalar (zeroValue kind))
 | .implicit,.enum _ _=>some (.scalar (.int 0))
 | .repeated,_=>some (.list [])
 | .map,_=>some (.map [] [])
 | _,_=>none

def emptySlot (field:Field) : Option Logical:=emptyValue field.attributes.presence field.type

def emptyMessage (fields:List Field) : Logical:=.message (fields.map emptySlot)

def fixedLength : DataType → ℕ
 | .list _ _ n=>n
 | _=>0

def isClosedEnum : DataType → Bool
 | .enum _ enum=>enum.closed
 | _=>false

/-- A field that a message may leave out, so that a row may leave out its column. -/
structure Omissible (field:Field) : Prop where
 notRequired : field.attributes.presence≠.required
 applicable : field.attributes.presence≠.notApplicable
 growing : fixedLength field.type=0
 opened : field.attributes.presence=.implicit → isClosedEnum field.type=false

variable {fields:List Field} {field:Field} (validJSON:List UInt8 → Bool)
lemma presenceTuple_default (c:ColumnType) : typeDefault (presenceTuple c) =
 .tuple ["present","value"] [truth false,typeDefault c] := rfl

lemma ifPresent_default (c:ColumnType) (cs:List Check) : ∀check∈cs.map Check.ifPresent,
  check.value validJSON (typeDefault (presenceTuple c))=some true := by
 intro check hc
 obtain ⟨inner,-,rfl⟩:=List.mem_map.1 hc
 rw [presenceTuple_default]
 rfl

lemma fieldChecks_default (hm:MappableField field) (h:Omissible field) :
 ∀c∈fieldChecks field,c.value validJSON (typeDefault (fieldColumn field))=some true := by
 cases field with
 | nil=>exact hm.elim
 | mk a t=>
  obtain ⟨hr,ha,hg,ho⟩:=h
  rw [fieldChecks,fieldColumn]
  have hok:=hm.1
  unfold PresenceOk at hok
  unfold presenceChecks presenceColumn
  split at hok
  · next hp=>
    rw [hp]
    cases t with
    | primitive p kind=>
     cases kind <;> simp [typeChecks,typeColumn,primitiveColumn,typeDefault,baseDefault,Check.value]
     decide
    | enum p enum=>
     have hcl:enum.closed=false:=ho hp
     simp [typeChecks,hcl]
    | _=>cases hok
  · next hp=>rw [hp];exact ifPresent_default validJSON _ _
  · next hp=>
    obtain ⟨p,element,n,rfl⟩:=hok
    obtain rfl : n=0:=hg
    rw [hp]
    simp [typeChecks,typeColumn,typeDefault,Check.value]
  · next hp=>
    obtain ⟨p,key,value,rfl⟩:=hok
    rw [hp]
    simp [typeChecks,typeColumn,typeDefault,Check.value,or_imp,forall_and]
  · next hp=>
    rw [hp]
    by_cases hc : isComposite t=true
    · simp only [hc,if_true]
      exact ifPresent_default validJSON _ _
    · simp [hc,typeDefault,Check.value]
  · next hp=>exact absurd hp hr
  · next hp=>exact absurd hp ha
  · exact hok.elim

lemma decodeField_default (hm:MappableField field) (h:Omissible field) :
 decodeField field (typeDefault (fieldColumn field))=some (emptySlot field) := by
 cases field with
 | nil=>exact hm.elim
 | mk a t=>
  obtain ⟨hr,ha,hg,ho⟩:=h
  rw [decodeField,fieldColumn,emptySlot,Field.attributes_mk,Field.type_mk]
  have hok:=hm.1
  unfold PresenceOk at hok
  unfold storedValue presenceColumn
  split at hok
  · next hp=>
    rw [hp]
    cases t with
    | primitive p kind=>
     simp only [typeColumn,typeDefault,decodeType,baseDefault_primitiveColumn]
     rfl
    | enum p enum=>rfl
    | _=>cases hok
  · next hp=>rw [hp];rfl
  · next hp=>
    obtain ⟨p,element,n,rfl⟩:=hok
    rw [hp]
    rfl
  · next hp=>
    obtain ⟨p,key,value,rfl⟩:=hok
    rw [hp]
    rfl
  · next hp=>
    rw [hp]
    by_cases hc : isComposite t=true
    · simp only [hc,if_true]
      rfl
    · simp [hc,typeDefault,emptyValue]
  · next hp=>exact absurd hp hr
  · next hp=>exact absurd hp ha
  · exact hok.elim

lemma table_element {name:String} {c:ColumnType} (hs:ScopeOk fields)
 (hm:(name,c)∈tableColumns fields) :
 (typeDefault (tupleOf (tableColumns fields))).element name=some (typeDefault c) :=
 element_default (tableColumns_nodup hs) (by rwa [zip_fst_snd])

lemma field_default (hs:ScopeOk fields) (hf:field∈fields) :
 (typeDefault (tupleOf (tableColumns fields))).element field.attributes.name =
  some (typeDefault (fieldColumn field)) := by
 refine table_element hs ?_
 rw [tableColumns,structColumns,fieldColumns_eq]
 exact field_mem_structEntries hf

lemma case_default (hs:ScopeOk fields) (hf:field∈fields) (ho:field.attributes.oneof≠"") :
 (typeDefault (tupleOf (tableColumns fields))).element (oneofCaseName field.attributes.oneof) =
  some (integer 0) := by
 refine table_element (c := .base .int32) hs ?_
 rw [tableColumns,structColumns,fieldColumns_eq]
 exact case_mem_structEntries hf ho

lemma unit_default (hs:ScopeOk fields) (hem:fields.isEmpty=true) :
 (typeDefault (tupleOf (tableColumns fields))).element unitName=some (truth false) := by
 refine table_element (c := .base .bool) hs ?_
 rw [tableColumns,structColumns,fieldColumns_eq]
 exact unit_mem_structEntries hem

lemma openCheck_default (seen:List String) (hs:ScopeOk fields) (hf:field∈fields) (rest:List Field) :
 ∀c∈(if opens seen field then [caseCheck field rest] else []),
  c.value validJSON (typeDefault (tupleOf (tableColumns fields)))=some true := by
 split
 · next ho=>
   intro c hc
   rw [List.mem_singleton.1 hc,caseCheck,Check.value,case_default hs hf ho.1]
   simp [integer,Check.value,caseNumbers]
 · simp

lemma memberChecks_default (hs:ScopeOk fields) (hf:field∈fields) : ∀c∈memberChecks field,
  c.value validJSON (typeDefault (tupleOf (tableColumns fields)))=some true := by
 unfold memberChecks
 split
 · simp
 · next ho=>
   intro c hc
   obtain ⟨hp,hn,-⟩:=hs.member field hf ho
   have hne:(0:ℤ)≠((lastNumber field).toNat : ℤ):=by
    intro hz
    exact hn (UInt32.toNat_inj.1 (by simpa using hz.symm))
   have hcl:∃c,fieldColumn field=presenceTuple c:=by
    cases field with
    | nil=>cases hp
    | mk a t=>
     rw [Field.attributes_mk] at hp
     exact ⟨typeColumn t,by rw [fieldColumn,presenceColumn,hp]⟩
   obtain ⟨inner,hi⟩:=hcl
   rw [List.mem_singleton.1 hc,selectedCheck,Check.value,case_default hs hf ho,
    field_default hs hf,hi,presenceTuple_default]
   simp [integer,Value.element,asBool,truth,hne]

lemma scopeChecks_default (hs:ScopeOk fields) (hm:∀f∈fields,MappableField f)
 (h:∀f∈fields,Omissible f) (seen:List String) (rest:List Field) (hr:∀f∈rest,f∈fields) :
 ∀c∈scopeChecks seen (rest.zip (allChecks rest)),
  c.value validJSON (typeDefault (tupleOf (tableColumns fields)))=some true := by
 induction rest generalizing seen with
 | nil=>simp [scopeChecks]
 | cons field rest ih=>
  have hf:=hr field mem_cons_self
  rw [allChecks,zip_cons_cons,scopeChecks]
  simp only [forall_mem_append]
  refine ⟨⟨⟨openCheck_default validJSON seen hs hf _,memberChecks_default validJSON hs hf⟩,
   ?_⟩,ih _ fun f hf=>hr f (mem_cons_of_mem _ hf)⟩
  intro c hc
  obtain ⟨inner,hi,rfl⟩:=List.mem_map.1 hc
  rw [Check.value,field_default hs hf]
  exact fieldChecks_default validJSON (hm field hf) (h field hf) inner hi

lemma tableChecks_default (hs:ScopeOk fields) (hm:∀f∈fields,MappableField f)
 (h:∀f∈fields,Omissible f) : ∀c∈tableChecks fields,
  c.value validJSON (typeDefault (tupleOf (tableColumns fields)))=some true := by
 unfold tableChecks structChecks
 split
 · next hem=>
   intro c hc
   rw [List.mem_singleton.1 hc,Check.value,unit_default hs hem]
   rfl
 · exact scopeChecks_default validJSON hs hm h [] fields fun _ hf=>hf

lemma decodeFields_default (hs:ScopeOk fields) (hm:∀f∈fields,MappableField f)
 (h:∀f∈fields,Omissible f) :
 decodeFields fields (typeDefault (tupleOf (tableColumns fields)))=some (fields.map emptySlot) := by
 rw [decodeFields_eq_some,forall₂_map_right_iff,forall₂_same]
 exact fun f hf=>⟨_,field_default hs hf,decodeField_default (hm f hf) (h f hf)⟩

lemma selectedNumber_empty (hsc:ScopeOk fields) {oneof:String} (ho:oneof≠"") :
 selectedNumber oneof fields (fields.map emptySlot)=0 := by
 have hn:(fields.zip (fields.map emptySlot)).find?
   (fun p=>p.1.attributes.oneof=oneof ∧ p.2.isSome)=none:=by
  rw [zip_map_self,List.find?_eq_none]
  intro p hp
  obtain ⟨f,hf,rfl⟩:=List.mem_map.1 hp
  intro hs
  obtain ⟨heq,hsm⟩ : f.attributes.oneof=oneof ∧ (emptySlot f).isSome=true:=by
   simpa using hs
  have hpr:=(hsc.member f hf (heq ▸ ho)).1
  simp [emptySlot,hpr,emptyValue] at hsm
 rw [selectedNumber,hn]
 rfl

lemma decodeScope_default (hs:ScopeOk fields) (hm:∀f∈fields,MappableField f)
 (h:∀f∈fields,Omissible f) :
 decodeScope fields (typeDefault (tupleOf (tableColumns fields)))=some (emptyMessage fields) := by
 have ha:scopeAgrees fields (fields.map emptySlot)
   (typeDefault (tupleOf (tableColumns fields)))=true:=by
  rw [scopeAgrees,decide_eq_true_eq]
  refine ⟨unit_default hs,fun oneof hmm=>?_⟩
  obtain ⟨hmm,ho⟩:=List.mem_filter.1 hmm
  obtain ⟨f,hf,rfl⟩:=List.mem_map.1 hmm
  rw [case_default hs hf (by simpa using ho),selectedNumber_empty hs (by simpa using ho)]
  rfl
 rw [decodeScope,decodeFields_default hs hm h]
 simp [ha,emptyMessage]
end

lemma fieldPresence_applicable (files:Files) (fd:FieldDescriptor) :
 (fieldPresence files fd).1≠.notApplicable := by
 unfold fieldPresence
 repeat' split
 all_goals simp

lemma compiled_applicable {m:Descriptor} {previous:Option DatasetSchema} {d:DatasetSchema}
 (h:compileMessage m previous=.ok d) : ∀f∈d.fields,f.attributes.presence≠.notApplicable := by
 intro f hf
 obtain ⟨c,v,C⟩:=compileMessage_ok.1 h
 obtain ⟨slot,hs,hc⟩:=forall₂_mem_right (compiledFields_forall₂.1 C.tree) hf
 obtain ⟨fd,-,rfl⟩:=List.mem_map.1 hs
 cases f with
 | nil=>exact hc.elim
 | mk a t=>
  rw [Field.attributes_mk,hc.1.attributes]
  exact fieldPresence_applicable _ _

/-- Where no field is required, of fixed length or an implicit closed enum, the row of column
  defaults is a row of the table, passes every constraint and stands for the empty message. -/
theorem defaults_encode_empty_message {m:Descriptor} {previous:Option DatasetSchema} {d:DatasetSchema}
  {table:TableSchema} {diagnostics:List MappingDiagnostic} (hc:compileMessage m previous=.ok d)
  (hs:schema d=.ok (table,diagnostics)) (hrequired:∀f∈d.fields,f.attributes.presence≠.required)
  (hfixed:∀f∈d.fields,fixedLength f.type=0)
  (hopen:∀f∈d.fields,f.attributes.presence=.implicit → isClosedEnum f.type=false)
  (validJSON:List UInt8 → Bool) : ∃row,defaultRow validJSON table=some row ∧
   (∃types,columnTypes table=some types ∧ admitsAll types row=true) ∧
   (∀c∈table.constraints,Satisfies validJSON (rowEnv table row) c.expression) ∧
   decodeScope d.fields (rowValue table row)=some (emptyMessage d.fields) := by
 have hw:=schema_written hs
 have hm:=mappableFields_iff.1 hw.mappable
 have ho:∀f∈d.fields,Omissible f:=fun f hf=>
  ⟨hrequired f hf,compiled_applicable hc f hf,hfixed f hf,hopen f hf⟩
 have hr:rowValue table (defaults ((tableColumns d.fields).map Prod.snd)) =
   typeDefault (tupleOf (tableColumns d.fields)) := by
  rw [rowValue,columnNames_eq hw]
  rfl
 have hch:=tableChecks_default validJSON hw.scope hm ho
 refine ⟨_,defaultRow_eq validJSON hw,⟨_,columnTypes_eq hw,?_⟩,?_,?_⟩
 · exact admitsAll_defaults _
 · rw [satisfies_iff hw validJSON fun c hc=>⟨true,by rw [hr]; exact hch c hc⟩,hr]
   exact hch
 · rw [hr]
   exact decodeScope_default hw.scope hm ho

theorem payment_defaults : ∃row,defaultRow (fun _=>false) paymentTable.1=some row ∧
  decodeScope paymentDataset.fields (rowValue paymentTable.1 row) =
   some (emptyMessage paymentDataset.fields) := by
 obtain ⟨row,hr,-,-,hd⟩:=defaults_encode_empty_message paymentDataset_eq paymentTable_eq
  (by decide +kernel) (by decide +kernel) (by decide +kernel) fun _=>false
 exact ⟨row,hr,hd⟩
end InvariantProtocol.ClickHouseDefaults
