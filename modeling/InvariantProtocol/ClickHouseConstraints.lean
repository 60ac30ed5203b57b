import InvariantProtocol.RowMeaning
import InvariantProtocol.SlotShape
import InvariantProtocol.CompileOutcome
namespace InvariantProtocol.ClickHouseConstraints
open List ListRelations GoResult DataSchema DataMapping ProtoDescriptor
open CompilerState DataCompiler CompiledTree CompilerWalk Occurrences SlotShape CompileOutcome
open ClickHouseSchema SqlType SqlValue SqlExpr SqlEval LogicalRow ClickHouseChecks
open ClickHouseText StoredShape ClickHouseLayout StoredScope RowMeaning

variable {m:Descriptor} {previous:Option DatasetSchema} {d:DatasetSchema}

section

/-- What the slot of a compiled node says of it as an item of a collection. -/
def ItemFacts (files:Files) (slot:Slot) (field:Field) : Prop :=
 match slot with
 | .proto _ _=>True
 | .synthetic _ _ _ fd options=>
  field.attributes.presence=.notApplicable ∧
   (valueContainer files fd options=none → isComposite field.type=false)

lemma isComposite_of_isLeaf {t:DataType} (h:isLeaf t=true) : isComposite t=false ∧ ItemsType t := by
 cases t <;> first | exact ⟨rfl,trivial⟩ | cases h

variable {h:CompilerHistory} {parent:String}
lemma node_itemFacts {files:Files} {slot:Slot} {path:List UInt32} {a:FieldAttributes}
 {t:DataType} (node:NodeOk files h slot path parent a t) : ItemFacts files slot (.mk a t) := by
 cases slot with
 | proto md fd=>trivial
 | synthetic role name protoFullName fd options=>
  refine ⟨?_,fun hn=>?_⟩
  · rw [Field.attributes_mk,node.attributes]
    rfl
  · cases slotForm_of_shape node.shape with
    | struct fields hc _ _=>rw [Slot.container,hn] at hc;cases hc
    | leaf hl _ _=>exact (isComposite_of_isLeaf hl).1

lemma compiledField_items (hm:DescriptorValid m) {field:Field} {fuel:ℕ} {stack:List String}
 {slot:Slot} {path:List UInt32} (hf:CompiledField m.files h field fuel stack slot path parent) :
 ItemsField field := by
 refine (CompiledField.induction
  (P := fun slot _ _ field=>ItemsField field ∧ ItemFacts m.files slot field) ?_ hf).1
 intro slot parentPath parent a t node hc
 refine ⟨?_,node_itemFacts node⟩
 rw [ItemsField]
 cases slotForm_of_shape node.shape with
 | struct fields _ _ _=>
  rw [ItemsType,itemsFields_iff]
  intro f hf
  obtain ⟨s,-,hs⟩:=forall₂_mem_right hc hf
  exact hs.1
 | @list md fd element hmp hl=>
  have hsl:(Slot.proto md fd).children m.files=[elementSlot md fd]:=by
   simp [Slot.children,hmp,hl]
  rw [hsl] at hc
  obtain ⟨hi,hfc⟩:=(forall₂_cons.1 hc).1
  exact ⟨hfc.1,hi⟩
 | @map md fd key value hmp=>
  have hsl:(Slot.proto md fd).children m.files=mapSlots m.files md fd:=by
   simp [Slot.children,hmp]
  rw [hsl,mapSlots] at hc
  split at hc
  · next keyField valueField hky _=>
    obtain ⟨⟨hki,hk⟩,hr⟩:=forall₂_cons.1 hc
    obtain ⟨hv,hvf⟩:=(forall₂_cons.1 hr).1
    have hsc:valueContainer m.files keyField none=none:=by
     simp [valueContainer,mapKey_scalar hm hmp hky]
    exact ⟨⟨hk.1,hk.2 hsc,hki⟩,hvf.1,hv⟩
  · simp [DataType.children] at hc
 | leaf hlf _ _=>exact (isComposite_of_isLeaf hlf).2

lemma compiled_items (hm:DescriptorValid m) (h:compileMessage m previous=.ok d) : ItemsFields d.fields := by
 obtain ⟨c,v,C⟩:=compileMessage_ok.1 h
 rw [itemsFields_iff]
 intro f hf
 obtain ⟨s,-,hs⟩:=forall₂_mem_right (compiledFields_forall₂.1 C.tree) hf
 exact compiledField_items hm hs
end

def columnTypes (table:TableSchema) : Option (List ColumnType) :=
 table.columns.mapM fun column=>parseType column.type

def columnNames (table:TableSchema) : List String:=table.columns.map fun column=>column.name

def rowEnv (table:TableSchema) (row:List Value) : Env:=(columnNames table).zip row

def rowValue (table:TableSchema) (row:List Value) : Value:=.tuple (columnNames table) row

variable {fields:List Field} {table:TableSchema}
lemma tableColumns_eq (fields:List Field) :
 tableColumns fields=(tableEntries fields).map (Prod.map id Prod.fst) := by
 rw [tableEntries,structEntries_map,tableColumns,structColumns,fieldColumns_eq]
 rfl

lemma columnNames_eq (h:TableWritten fields table) :
 columnNames table=(tableColumns fields).map Prod.fst := by
 have hn:=congrArg (map Prod.fst) h.columns
 rw [tableColumns_eq]
 simpa [columnNames,Function.comp_def,columnText] using hn

lemma columnTypes_eq (h:TableWritten fields table) :
 columnTypes table=some ((tableColumns fields).map Prod.snd) := by
 have ht:=congrArg (map fun e : String×String×String=>e.2.1) h.columns
 simp only [map_map,Function.comp_def,columnText] at ht
 replace ht : table.columns.map (fun c=>c.type) =
   (tableColumns fields).map fun c=>c.2.render:=by
  rw [ht,tableColumns_eq,map_map]
  rfl
 have hp:(table.columns.map fun c=>c.type).mapM parseType =
   some ((tableColumns fields).map Prod.snd):=by
  rw [ht,mapM_eq_some,forall₂_map_left_iff,forall₂_map_right_iff,forall₂_same]
  exact fun c hc=>parseType_render c.2
   (tableColumns_wellFormed (fun f _=>fieldColumn_wellFormed f) c hc)
 rw [mapM_eq_some,forall₂_map_left_iff] at hp
 exact mapM_eq_some.2 hp

lemma scopeChecks_onScope (seen:List String) (ps:List (Field×List Check)) :
 ∀c∈scopeChecks seen ps,c.onScope=true := by
 induction ps generalizing seen with
 | nil=>simp [scopeChecks]
 | cons p ps ih=>
  rw [scopeChecks]
  simp only [forall_mem_append]
  refine ⟨⟨⟨?_,?_⟩,?_⟩,ih _⟩
  · split <;> simp [caseCheck,Check.onScope]
  · unfold memberChecks
    split <;> simp [selectedCheck,Check.onScope]
  · simp [Check.onScope]

lemma tableChecks_onScope (fields:List Field) : ∀c∈tableChecks fields,c.onScope=true := by
 unfold tableChecks structChecks
 split
 · simp [Check.onScope]
 · exact scopeChecks_onScope _ _

variable {row:List Value}
lemma satisfies_iff (h:TableWritten fields table) (validJSON:List UInt8 → Bool)
 (hd:∀c∈tableChecks fields,∃b,c.value validJSON (rowValue table row)=some b) :
 (∀c∈table.constraints,Satisfies validJSON (rowEnv table row) c.expression) ↔
  ∀c∈tableChecks fields,c.value validJSON (rowValue table row)=some true := by
 have hm:(∀c∈table.constraints,Satisfies validJSON (rowEnv table row) c.expression) ↔
   ∀c∈tableChecks fields,Satisfies validJSON (rowEnv table row) c.columnExpr.render:=by
  rw [←forall_mem_map (f := fun c : Constraint=>c.expression)
   (P := fun e=>Satisfies validJSON (rowEnv table row) e),h.constraints,forall_mem_map]
 rw [hm]
 refine forall₂_congr fun c hc=>?_
 have hs:=tableChecks_onScope fields c hc
 obtain ⟨b,hb⟩:=hd c hc
 have hev:=eval_columnCheck validJSON c hs hb
 rw [Satisfies,evalText_render _ _ _ (columnCheck_wellFormed (h.clean c hc) hs),rowEnv,hev,hb]
 simp [truth]

lemma admits_rowValue (h:TableWritten fields table)
 (hr:admitsAll ((tableColumns fields).map Prod.snd) row=true) :
 admits (tupleOf (tableColumns fields)) (rowValue table row)=true := by
 simp [tupleOf,rowValue,admits,columnNames_eq h,hr]

/-- The constraints of a compiled dataset hold of a typed row exactly if it stands for a message
  the dataset describes. -/
theorem satisfied_iff_decodes {table:TableSchema} (hm:DescriptorValid m)
 (hc:compileMessage m previous=.ok d) (hwr:TableWritten d.fields table)
 (validJSON:List UInt8 → Bool) (hr:admitsAll ((tableColumns d.fields).map Prod.snd) row=true) :
 (∀c∈table.constraints,Satisfies validJSON (rowEnv table row) c.expression) ↔
  ∃l,decodeScope d.fields (rowValue table row)=some l ∧
   ValidMessage validJSON d.fields l := by
 have hvalue:=admits_rowValue hwr hr
 have hmp:=mappableFields_iff.1 hwr.mappable
 have hi:=itemsFields_iff.1 (compiled_items hm hc)
 have hd:Decides validJSON (tableChecks d.fields) (rowValue table row)
   (∃l,decodeScope d.fields (rowValue table row)=some l ∧
    ValidMessage validJSON d.fields l):=
  tableChecks_decides hwr.scope hvalue (scopeStored hwr.scope hvalue hmp)
   fun f hf w hw=>fieldChecks_decides validJSON f (hmp f hf) (hi f hf) hw
 rw [satisfies_iff hwr validJSON hd.1]
 exact hd.2

/-- The emitted column types can be read back, and a row of those types satisfies every emitted
  constraint exactly if it decodes to a message that the dataset describes. -/
theorem constraints_sound_and_complete {m:Descriptor} {previous:Option DatasetSchema}
  {d:DatasetSchema} {table:TableSchema} {diagnostics:List MappingDiagnostic}
  (hm:DescriptorValid m) (hc:compileMessage m previous=.ok d)
  (hs:schema d=.ok (table,diagnostics)) (validJSON:List UInt8 → Bool) :
  ∃types,columnTypes table=some types ∧ ∀row,admitsAll types row=true →
   ((∀c∈table.constraints,Satisfies validJSON (rowEnv table row) c.expression) ↔
    ∃l,decodeScope d.fields (rowValue table row)=some l ∧
     ValidMessage validJSON d.fields l) := by
 have hw:=schema_written hs
 exact ⟨_,columnTypes_eq hw,fun row hr=>
  satisfied_iff_decodes hm hc hw validJSON hr⟩

def card : MessageDescriptor where
 fullName := "shop.Card"
 fields:=[{ name := "number",number:=1,kind:=.string,jsonName := "number" }]

def labelsEntry : MessageDescriptor where
 fullName := "shop.Payment.LabelsEntry"
 isMapEntry:=true
 fields:=[{ name := "key",number:=1,kind:=.string,jsonName := "key" },
  { name := "value",number:=2,kind:=.uint64,jsonName := "value" }]

def method : OneofDescriptor where
 name := "method"
 isSynthetic:=false

def status : EnumDescriptor where
 fullName := "shop.Status"
 values:=[{ name := "OPEN",number:=0 },{ name := "PAID",number:=1 }]
 isClosed:=false

def payment : Descriptor where
 files:=⟨[card,labelsEntry]⟩
 message :=
  { fullName := "shop.Payment"
    fields:=[
     { name := "id",number:=1,kind:=.string,jsonName := "id" },
     { name := "card",number:=2,kind:=.message "shop.Card",jsonName := "card",
       containingOneof:=some method,fieldPresence:=true },
     { name := "cash",number:=3,kind:=.int64,jsonName := "cash",
       containingOneof:=some method,fieldPresence:=true },
     { name := "labels",number:=4,kind:=.message "shop.Payment.LabelsEntry",
       cardinality:=.repeated,jsonName := "labels" },
     { name := "status",number:=5,kind:=.enum status,jsonName := "status" },
     { name := "parts",number:=6,kind:=.double,cardinality:=.repeated,
       jsonName := "parts" }] }

@[irreducible] def paymentDataset : DatasetSchema :=
 value (compileMessage payment none) (by decide +kernel)

lemma paymentDataset_eq : compileMessage payment none=.ok paymentDataset := by
 rw [paymentDataset]
 exact eq_ok_value _ _

@[irreducible] def paymentTable : TableSchema×List MappingDiagnostic :=
 value (schema paymentDataset) (by decide +kernel)

lemma paymentTable_eq : schema paymentDataset=.ok paymentTable := by
 rw [paymentTable]
 exact eq_ok_value _ _

def paymentRow : List Value :=
 [.scalar (.bytes [65]),.scalar (.int 2),
  .tuple ["present","value"] [.scalar (.bool true),.tuple ["number"] [.scalar (.bytes [52,50])]],
  .tuple ["present","value"] [.scalar (.bool false),.scalar (.int 7)],
  .map [.scalar (.bytes [97]),.scalar (.bytes [98])] [.scalar (.int 1),.scalar (.int 1)],
  .scalar (.int 9),.array []]

theorem payment_constraints : (columnTypes paymentTable.1).any (fun types=>admitsAll types paymentRow)=true ∧
   ∃l,decodeScope paymentDataset.fields (rowValue paymentTable.1 paymentRow)=some l ∧
    ValidMessage (fun _=>false) paymentDataset.fields l := by
 have ht:(columnTypes paymentTable.1).any (fun types=>admitsAll types paymentRow)=true := by
  decide +kernel
 have hch:∀c∈tableChecks paymentDataset.fields,
   c.value (fun _=>false) (rowValue paymentTable.1 paymentRow)=some true := by
  decide +kernel
 have hs:=(satisfies_iff (schema_written paymentTable_eq) (fun _=>false)
  fun c hc=>⟨true,hch c hc⟩).2 hch
 obtain ⟨types,hty,hr⟩:=constraints_sound_and_complete (by decide) paymentDataset_eq
  paymentTable_eq fun _=>false
 rw [hty] at ht
 exact ⟨by rwa [hty],(hr paymentRow ht).1 hs⟩
end InvariantProtocol.ClickHouseConstraints
