import InvariantProtocol.ClickHouseLayout
namespace InvariantProtocol.StoredScope
open GoText DataSchema ClickHouseSchema SqlType SqlValue SqlEval StoredShape
open ClickHouseLayout
open List hiding map

lemma oneofCaseName_inj {a b:String} (h:oneofCaseName a=oneofCaseName b) : a=b := by
 rw [←String.toList_inj] at h ⊢
 simpa [oneofCaseName] using h

lemma oneofCaseName_reserved (oneof:String) : startsWith reservedNamePrefix (oneofCaseName oneof)=true := by
 rw [oneofCaseName,String.append_assoc,String.append_assoc]
 exact startsWith_append _ _

section
variable {β:Type} {entry x:β} {ps:List (Field×β)} {seen:List String} {field:Field}
lemma field_mem_scopeEntries (h:(field,x)∈ps) : (field.attributes.name,x)∈scopeEntries entry seen ps := by
 induction ps generalizing seen with
 | nil=>simp at h
 | cons p ps ih=>
  rw [scopeEntries]
  rcases List.mem_cons.1 h with rfl|h
  · exact mem_append_right _ mem_cons_self
  · exact mem_append_right _ (mem_cons_of_mem _ (ih h))

lemma case_mem_scopeEntries (h:(field,x)∈ps) (hon:field.attributes.oneof≠"")
 (hs:field.attributes.oneof∉seen) :
 (oneofCaseName field.attributes.oneof,entry)∈scopeEntries entry seen ps := by
 induction ps generalizing seen with
 | nil=>simp at h
 | cons p ps ih=>
  rw [scopeEntries]
  by_cases heq : field.attributes.oneof=p.1.attributes.oneof
  · have ho:opens seen p.1:=⟨heq ▸ hon,heq ▸ hs⟩
    rw [if_pos ho,heq]
    exact mem_append_left _ mem_cons_self
  · have hr:(field,x)∈ps:=by
     rcases List.mem_cons.1 h with rfl|h
     · exact absurd rfl heq
     · exact h
    have hs':field.attributes.oneof∉p.1.attributes.oneof::seen:=by
     simpa using And.intro heq hs
    exact mem_append_right _ (mem_cons_of_mem _ (ih hr hs'))

lemma mem_scopeEntries {name:String} (h:name∈(scopeEntries entry seen ps).map Prod.fst) :
 (∃p∈ps,name=p.1.attributes.name) ∨ ∃oneof,oneof∉seen ∧ name=oneofCaseName oneof := by
 induction ps generalizing seen with
 | nil=>simp [scopeEntries] at h
 | cons p ps ih=>
  rw [scopeEntries,map_append,map_cons,mem_append,mem_cons] at h
  rcases h with h|rfl|h
  · by_cases ho : opens seen p.1
    · rw [if_pos ho] at h
      exact .inr ⟨_,ho.2,by simpa using h⟩
    · simp [if_neg ho] at h
  · exact .inl ⟨p,mem_cons_self,rfl⟩
  · rcases ih h with ⟨q,hq,hn⟩|⟨oneof,hs,hn⟩
    · exact .inl ⟨q,mem_cons_of_mem _ hq,hn⟩
    · exact .inr ⟨oneof,fun hm=>hs (mem_cons_of_mem _ hm),hn⟩

lemma scopeEntries_nodup (hn:(ps.map fun p=>p.1.attributes.name).Nodup)
 (hu:∀p∈ps,startsWith reservedNamePrefix p.1.attributes.name=false) :
 ((scopeEntries entry seen ps).map Prod.fst).Nodup := by
 induction ps generalizing seen with
 | nil=>simp [scopeEntries]
 | cons p ps ih=>
  obtain ⟨hf,hn⟩:=List.nodup_cons.1 hn
  have hr:∀oneof,∀q∈p::ps,oneofCaseName oneof≠q.1.attributes.name:=by
   intro oneof q hq heq
   have hc:=oneofCaseName_reserved oneof
   rw [heq,hu q hq] at hc
   cases hc
  have hrs:((scopeEntries entry (p.1.attributes.oneof::seen) ps).map Prod.fst).Nodup:=
   ih hn fun q hq=>hu q (mem_cons_of_mem _ hq)
  have hnm:p.1.attributes.name ∉
    (scopeEntries entry (p.1.attributes.oneof::seen) ps).map Prod.fst:=by
   intro hm
   rcases mem_scopeEntries hm with ⟨q,hq,heq⟩|⟨oneof,-,heq⟩
   · exact hf (List.mem_map.2 ⟨q,hq,heq.symm⟩)
   · exact hr oneof p mem_cons_self heq.symm
  rw [scopeEntries,map_append,map_cons]
  by_cases ho : opens seen p.1
  · rw [if_pos ho,map_singleton,singleton_append,nodup_cons]
    refine ⟨?_,List.nodup_cons.2 ⟨hnm,hrs⟩⟩
    intro hm
    rcases List.mem_cons.1 hm with heq|hm
    · exact hr _ p mem_cons_self heq
    rcases mem_scopeEntries hm with ⟨q,hq,heq⟩|⟨oneof,hs,heq⟩
    · exact hr _ q (mem_cons_of_mem _ hq) heq
    · exact hs (oneofCaseName_inj heq ▸ mem_cons_self)
  · rw [if_neg ho]
    exact List.nodup_cons.2 ⟨hnm,hrs⟩

lemma forall_mem_scopeEntries {P:β → Prop} (hc:P entry) (h:∀p∈ps,P p.2) :
 ∀e∈scopeEntries entry seen ps,P e.2 := by
 induction ps generalizing seen with
 | nil=>simp [scopeEntries]
 | cons p ps ih=>
  rw [scopeEntries,forall_mem_append,forall_mem_cons]
  refine ⟨?_,h p mem_cons_self,ih fun q hq=>h q (mem_cons_of_mem _ hq)⟩
  split
  · simpa using hc
  · simp
end

section
variable {β:Type} {unitEntry entry:β} {fields:List Field} {f:Field → β} {field:Field}
lemma zip_map_self (fields:List Field) (f:Field → β) :
 fields.zip (fields.map f)=fields.map fun field=>(field,f field) := by
 induction fields with
 | nil=>rfl
 | cons field rest ih=>simp [ih]

lemma not_isEmpty (hf:field∈fields) : ¬fields.isEmpty=true := by
 simpa using ne_nil_of_mem hf

lemma structEntries_nodup (hok:ScopeOk fields) :
 ((structEntries unitEntry entry fields (fields.map f)).map Prod.fst).Nodup := by
 unfold structEntries
 split
 · simp
 · rw [zip_map_self]
   refine scopeEntries_nodup ?_ ?_
   · simpa [Function.comp_def] using hok.nodup
   · simpa using hok.unreserved

lemma field_mem_structEntries (hf:field∈fields) :
 (field.attributes.name,f field)∈structEntries unitEntry entry fields (fields.map f) := by
 rw [structEntries,if_neg (not_isEmpty hf),zip_map_self]
 exact field_mem_scopeEntries (List.mem_map.2 ⟨field,hf,rfl⟩)

lemma case_mem_structEntries (hf:field∈fields) (ho:field.attributes.oneof≠"") :
 (oneofCaseName field.attributes.oneof,entry) ∈ structEntries unitEntry entry fields (fields.map f) := by
 rw [structEntries,if_neg (not_isEmpty hf),zip_map_self]
 exact case_mem_scopeEntries (List.mem_map.2 ⟨field,hf,rfl⟩) ho (by simp)

lemma unit_mem_structEntries (hem:fields.isEmpty=true) :
 (unitName,unitEntry)∈structEntries unitEntry entry fields (fields.map f) := by
 rw [structEntries,if_pos hem]
 exact mem_singleton_self _

lemma forall_mem_structEntries {P:β → Prop} (hu:P unitEntry) (hc:P entry)
 (hf:∀field∈fields,P (f field)) : ∀e∈structEntries unitEntry entry fields (fields.map f),P e.2 := by
 unfold structEntries
 split
 · simpa using hu
 · rw [zip_map_self]
   exact forall_mem_scopeEntries hc (by simpa using hf)
end

lemma tableColumns_nodup {fields:List Field} (hok:ScopeOk fields) :
 ((tableColumns fields).map Prod.fst).Nodup := by
 rw [tableColumns,structColumns,fieldColumns_eq]
 exact structEntries_nodup hok

section
variable {fields:List Field} {field:Field} {v:Value}
lemma zip_fst_snd (columns:List (String×ColumnType)) :
 (columns.map Prod.fst).zip (columns.map Prod.snd)=columns := by
 induction columns with
 | nil=>rfl
 | cons c columns ih=>simp [ih]

lemma element_of_mem {name:String} {c:ColumnType} (hok:ScopeOk fields)
 (hv:admits (tupleOf (tableColumns fields)) v=true) (hm:(name,c)∈tableColumns fields) :
 ∃w,v.element name=some w ∧ admits c w=true :=
 element_admits (tableColumns_nodup hok) hv (by rwa [zip_fst_snd])

lemma field_element (hok:ScopeOk fields) (hv:admits (tupleOf (tableColumns fields)) v=true)
 (hf:field∈fields) : ∃w,v.element field.attributes.name=some w ∧ admits (fieldColumn field) w=true := by
 refine element_of_mem hok hv ?_
 rw [tableColumns,structColumns,fieldColumns_eq]
 exact field_mem_structEntries hf

lemma admits_int32 {w:Value} (h:admits (.base .int32) w=true) : ∃k,w=integer k := by
 obtain ⟨s,rfl,hs⟩:=admits_base.1 h
 cases s with
 | int k=>exact ⟨k,rfl⟩
 | _=>simp [baseAdmits] at hs

lemma admits_bool {w:Value} (h:admits (.base .bool) w=true) : ∃b,w=truth b := by
 obtain ⟨s,rfl,hs⟩:=admits_base.1 h
 cases s with
 | bool b=>exact ⟨b,rfl⟩
 | _=>simp [baseAdmits] at hs

lemma case_element (hok:ScopeOk fields) (hv:admits (tupleOf (tableColumns fields)) v=true)
 (hf:field∈fields) (ho:field.attributes.oneof≠"") :
 ∃k,v.element (oneofCaseName field.attributes.oneof)=some (integer k) := by
 have hm:(oneofCaseName field.attributes.oneof,.base .int32)∈tableColumns fields:=by
  rw [tableColumns,structColumns,fieldColumns_eq]
  exact case_mem_structEntries hf ho
 obtain ⟨w,hw,ha⟩:=element_of_mem hok hv hm
 obtain ⟨k,rfl⟩:=admits_int32 ha
 exact ⟨k,hw⟩

lemma unit_element (hok:ScopeOk fields) (hv:admits (tupleOf (tableColumns fields)) v=true)
 (hem:fields.isEmpty=true) : ∃b,v.element unitName=some (truth b) := by
 have hm:(unitName,.base .bool)∈tableColumns fields:=by
  rw [tableColumns,structColumns,fieldColumns_eq]
  exact unit_mem_structEntries hem
 obtain ⟨w,hw,ha⟩:=element_of_mem hok hv hm
 obtain ⟨b,rfl⟩:=admits_bool ha
 exact ⟨b,hw⟩
end

lemma tupleOf_wellFormed {columns:List (String×ColumnType)} (hne:columns≠[])
 (h:∀c∈columns,c.2.WellFormed) : (tupleOf columns).WellFormed := by
 refine ⟨by simpa using hne,?_⟩
 clear hne
 induction columns with
 | nil=>trivial
 | cons c columns ih=>
  exact ⟨h c mem_cons_self,ih fun d hd=>h d (mem_cons_of_mem _ hd)⟩

lemma tableColumns_wellFormed {fields:List Field} (h:∀f∈fields,(fieldColumn f).WellFormed) :
 ∀c∈tableColumns fields,c.2.WellFormed := by
 rw [tableColumns,structColumns,fieldColumns_eq]
 exact forall_mem_structEntries trivial trivial h

lemma tableColumns_ne_nil (fields:List Field) : tableColumns fields≠[] := by
 unfold tableColumns structColumns structEntries
 split
 · simp
 · next h=>
   rw [fieldColumns_eq]
   exact fun hnil=>h (scopeEntries_eq_nil.1 hnil)

lemma presenceColumn_wellFormed {a:FieldAttributes} {t:DataType} {c:ColumnType} (h:c.WellFormed) :
 (presenceColumn a t c).WellFormed := by
 have ht:(presenceTuple c).WellFormed:=⟨by simp,trivial,h,trivial⟩
 unfold presenceColumn
 split
 · split
   · exact ht
   · exact h
 · exact ht
 · exact ht
 · exact h

lemma fieldColumn_wellFormed (field:Field) : (fieldColumn field).WellFormed := by
 induction field using Field.tree_induction with
 | hnil=>trivial
 | hmk a t ih=>
  rw [fieldColumn]
  refine presenceColumn_wellFormed ?_
  cases t with
  | struct p fields=>
   exact tupleOf_wellFormed (tableColumns_ne_nil fields) (tableColumns_wellFormed ih)
  | list p element n=>exact ih element mem_cons_self
  | map p key value=>
   exact ⟨ih key mem_cons_self,ih value (mem_cons_of_mem _ mem_cons_self)⟩
  | _=>trivial
end InvariantProtocol.StoredScope
