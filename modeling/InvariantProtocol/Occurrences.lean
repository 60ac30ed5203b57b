import InvariantProtocol.CompilerWalk
namespace InvariantProtocol.Occurrences
open ListRelations DataSchema DataIdentity DataEntries ProtoDescriptor CompilerState
open CompiledTree CompilerWalk

variable {path:List UInt32}
inductive Occurs (files:Files) (root:MessageDescriptor) :
  Slot → List UInt32 → String → Prop where
 | top {fd:FieldDescriptor} (h:fd∈root.fields) : Occurs files root (.proto root fd) [] ""
 | child {slot s:Slot} {path:List UInt32} {parent:String}
   (h:Occurs files root slot path parent) (hs:s∈slot.children files) :
   Occurs files root s (slot.path path) (appendIdentity parent slot.segment)

def Declares (m:Descriptor) (identity:String) : Prop :=
 ∃slot path parent,Occurs m.files m.message slot path parent ∧
  identity=appendIdentity parent slot.segment

def Slot.Proper : Slot → Prop
 | .proto _ _=>True
 | .synthetic role _ _ _ _=>isCollectionRole role

variable {s:Slot} {files:Files} {slot:Slot} {parent:String}
  {md:MessageDescriptor} {fd:FieldDescriptor} {root:MessageDescriptor} {h:CompilerHistory}
lemma protoSlots_proper (h:s∈protoSlots md) : Slot.Proper s := by
 obtain ⟨fd,-,rfl⟩:=List.mem_map.1 h
 trivial

lemma valueSlots_proper {options:Option FieldOptions} (h:s∈valueSlots files fd options) :
 Slot.Proper s := by
 unfold valueSlots at h
 split at h
 · exact protoSlots_proper h
 · simp at h

lemma mapSlots_proper (h:s∈mapSlots files md fd) : Slot.Proper s := by
 unfold mapSlots at h
 split at h
 · obtain rfl|rfl : s=_ ∨ s=_:=by simpa using h
   · exact Or.inr (Or.inl rfl)
   · exact Or.inr (Or.inr rfl)
 · simp at h

lemma children_proper (h:s∈slot.children files) : Slot.Proper s := by
 cases slot with
 | proto md fd=>
  simp only [Slot.children] at h
  split_ifs at h
  · exact mapSlots_proper h
  · obtain rfl : s=elementSlot md fd:=by simpa using h
    exact Or.inl rfl
  · exact valueSlots_proper h
 | synthetic role name protoFullName fd options=>exact valueSlots_proper h

lemma Occurs.proper (h:Occurs files root slot path parent) : Slot.Proper slot := by
 cases h with
 | top _=>trivial
 | child _ hs=>exact children_proper hs

lemma NodeOk.segment {a:FieldAttributes} {t:DataType}
 (node:NodeOk files h slot path parent a t) (hp:Slot.Proper slot) : nodeSegment a=slot.segment := by
 rw [node.attributes]
 cases slot with
 | proto md fd=>exact nodeSegment_proto _ _ _ _ _ _ _
 | synthetic role name protoFullName fd options=>exact nodeSegment_synthetic hp _ _ _ _

/-- A node of a compiled tree, at the slot that declares it. -/
def NodeAt (files:Files) (root:MessageDescriptor) (h:CompilerHistory) (identity:String)
  (field:Field) : Prop :=
 ∃slot path parent fuel stack,Occurs files root slot path parent ∧
  identity=appendIdentity parent slot.segment ∧
  CompiledField files h field fuel stack slot path parent

lemma compiledField_entries {field:Field} {fuel:ℕ} {stack:List String}
 (hf:CompiledField files h field fuel stack slot path parent) (ho:Occurs files root slot path parent) :
 ∀entry∈fieldEntries parent field,NodeAt files root h entry.1 entry.2 := by
 induction field using Field.tree_induction generalizing fuel stack slot path parent with
 | hnil=>exact hf.elim
 | hmk a t ih=>
  intro entry hen
  rw [fieldEntries,NodeOk.segment hf.1 ho.proper] at hen
  obtain rfl|hen:=List.mem_cons.1 hen
  · exact ⟨slot,path,parent,fuel,stack,ho,rfl,hf⟩
  · rw [typeEntries_eq,List.mem_flatMap] at hen
    obtain ⟨child,hcl,hen⟩:=hen
    obtain ⟨fuel',stack',hch⟩:=hf.type.children
    obtain ⟨s,hs,hc⟩:=forall₂_mem_right hch hcl
    exact ih child hcl hc (.child ho hs) entry hen

variable {files:Files} {root:MessageDescriptor} {h:CompilerHistory} {fields:List Field}
 {fuel:ℕ} {stack:List String}
lemma mem_protoSlots {md:MessageDescriptor} {s:Slot} : s∈protoSlots md ↔ ∃fd∈md.fields,s=.proto md fd := by
 simp only [protoSlots,List.mem_map,mem_sortedFields]
 exact ⟨fun ⟨fd,hfd,hs⟩=>⟨fd,hfd,hs.symm⟩,fun ⟨fd,hfd,hs⟩=>⟨fd,hfd,hs.symm⟩⟩

lemma compiledFields_entries (ht:CompiledFields files h fields fuel stack (protoSlots root) [] "")
 {entry:String×Field} (hen:entry∈fieldsEntries "" fields) : NodeAt files root h entry.1 entry.2 := by
 rw [fieldsEntries_eq,List.mem_flatMap] at hen
 obtain ⟨field,hfl,hen⟩:=hen
 obtain ⟨s,hs,hf⟩:=forall₂_mem_right (compiledFields_forall₂.1 ht) hfl
 obtain ⟨fd,hfd,rfl⟩:=mem_protoSlots.1 hs
 exact compiledField_entries hf (.top hfd) entry hen

variable {parent:String}
lemma Occurs.compiled (ht:CompiledFields files h fields fuel stack (protoSlots root) [] "")
 {slot:Slot} (ho:Occurs files root slot path parent) :
 ∃a t fuel' stack',CompiledField files h (.mk a t) fuel' stack' slot path parent ∧
  ∀entry∈fieldEntries parent (.mk a t),entry∈fieldsEntries "" fields := by
 induction ho with
 | @top fd hfd=>
  obtain ⟨field,hfl,hf⟩:=forall₂_mem_left (compiledFields_forall₂.1 ht)
   (mem_protoSlots.2 ⟨fd,hfd,rfl⟩)
  cases field with
  | nil=>exact hf.elim
  | mk a t=>
   refine ⟨a,t,fuel,stack,hf,fun entry hen=>?_⟩
   rw [fieldsEntries_eq,List.mem_flatMap]
   exact ⟨_,hfl,hen⟩
 | @child slot s path parent ho hs ih=>
  obtain ⟨a,t,fuel',stack',hf,hsub⟩:=ih
  obtain ⟨fuel'',stack'',hch⟩:=hf.type.children
  obtain ⟨child,hcl,hc⟩:=forall₂_mem_left hch hs
  cases child with
  | nil=>exact hc.elim
  | mk a' t' =>
   refine ⟨a',t',fuel'',stack'',hc,fun entry hen=>hsub entry ?_⟩
   rw [fieldEntries,NodeOk.segment hf.1 ho.proper,typeEntries_eq]
   exact List.mem_cons_of_mem _ (List.mem_flatMap.2 ⟨_,hcl,hen⟩)

lemma Occurs.entry (ht:CompiledFields files h fields fuel stack (protoSlots root) [] "")
 {slot:Slot} (ho:Occurs files root slot path parent) :
 ∃a t,(appendIdentity parent slot.segment,DataSchema.Field.mk a t) ∈ fieldsEntries "" fields ∧
  NodeOk files h slot path parent a t := by
 obtain ⟨a,t,fuel',stack',hf,hsub⟩:=ho.compiled ht
 refine ⟨a,t,hsub _ ?_,hf.node⟩
 rw [fieldEntries,NodeOk.segment hf.1 ho.proper]
 exact List.mem_cons_self
end InvariantProtocol.Occurrences
