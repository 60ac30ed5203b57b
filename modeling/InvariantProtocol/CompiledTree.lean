import InvariantProtocol.CompilerTrace
namespace InvariantProtocol.CompiledTree
open GoResult DataSchema DataIdentity ProtoDescriptor CompilerState
open DataCompiler

variable {field:Field} {files:Files} {fuel:ℕ} {h:CompilerHistory} {parent:String}
 {stack:List String}
inductive Slot where
 | proto (md:MessageDescriptor) (fd:FieldDescriptor)
 | synthetic (role:SyntheticRole) (name protoFullName:String) (fd:FieldDescriptor)
   (options:Option FieldOptions)

def roleSegment : SyntheticRole → String
 | .listElement=>"list:element"
 | .mapKey=>"map:key"
 | .mapValue=>"map:value"
 | _=>""

def Slot.segment : Slot → String
 | .proto _ fd=>fieldIdentitySegment fd.number
 | .synthetic role _ _ _ _=>roleSegment role

def Slot.path : Slot → List UInt32 → List UInt32
 | .proto _ fd,parentPath=>parentPath++[fd.number.toUInt32]
 | .synthetic _ _ _ _ _,parentPath=>parentPath

def Slot.attributes (files:Files) (path:List UInt32) (name source:String) (id:ℤ) :
  Slot → FieldAttributes
 | .proto md fd=>protoAttributes files md fd path name source id
 | .synthetic role name protoFullName _ _=>syntheticAttributes name protoFullName path id role

def elementSlot (md:MessageDescriptor) (fd:FieldDescriptor) : Slot :=
 .synthetic .listElement "element" (fd.fullName md++"[]") fd (listElementOptions fd.options)

def keySlot (md:MessageDescriptor) (fd entry:FieldDescriptor) : Slot :=
 .synthetic .mapKey "key" (fd.fullName md++".key") entry none

def valueSlot (md:MessageDescriptor) (fd entry:FieldDescriptor) : Slot :=
 .synthetic .mapValue "value" (fd.fullName md++".value") entry none

def protoSlots (md:MessageDescriptor) : List Slot:=(sortedFields md.fields).map (Slot.proto md)

/-- The message a value is expanded into; well-known types and refined carriers are leaves. -/
def valueContainer (files:Files) (fd:FieldDescriptor) (options:Option FieldOptions) :
  Option MessageDescriptor :=
 if options.isSome then none
 else (fd.messageType files).filter fun md=>(wellKnownType md.fullName).isNone

def valueSlots (files:Files) (fd:FieldDescriptor) (options:Option FieldOptions) : List Slot :=
 match valueContainer files fd options with
 | some md=>protoSlots md
 | none=>[]

def mapSlots (files:Files) (md:MessageDescriptor) (fd:FieldDescriptor) : List Slot :=
 match fd.mapKey files,fd.mapValue files with
 | some key,some value=>[keySlot md fd key,valueSlot md fd value]
 | _,_=>[]

def Slot.container (files:Files) : Slot → Option MessageDescriptor
 | .proto _ fd=>
  if fd.isMap files ∨ fd.isList files then none else valueContainer files fd fd.options
 | .synthetic _ _ _ fd options=>valueContainer files fd options

def Slot.children (files:Files) : Slot → List Slot
 | .proto md fd=>
  if fd.isMap files then mapSlots files md fd
  else if fd.isList files then [elementSlot md fd]
  else valueSlots files fd fd.options
 | .synthetic _ _ _ fd options=>valueSlots files fd options

def valueShape (files:Files) (fd:FieldDescriptor) (options:Option FieldOptions)
  (children:List Field) : Result DataType :=
 match options with
 | some options=>refinedType fd options
 | none=>match primitiveKind fd.kind with
  | some primitive=>.ok (.primitive "" primitive)
  | none=>match fd.kind with
   | .enum ed=>.ok (enumType ed)
   | _=>match fd.messageType files with
    | none=>.error (.errorf "message descriptor is missing" [])
    | some md=>do
     rejectExtensionRanges md
     match wellKnownType md.fullName with
     | some typ=>.ok typ
     | none=>.ok (.struct md.fullName children)

def Slot.shape (files:Files) (children:List Field) : Slot → Result DataType
 | .proto _ fd=>
  if fd.isMap files then match children with
   | [key,value]=>.ok (.map "" key value)
   | _=>.error (.errorf "nil pointer dereference" [])
  else if fd.isList files then match children with
   | [element]=>.ok (.list "" element (listFixedLength fd.options))
   | _=>.error (.errorf "nil pointer dereference" [])
  else valueShape files fd fd.options children
 | .synthetic _ _ _ fd options=>valueShape files fd options children

def Slot.Named (h:CompilerHistory) (parent:String) (a:FieldAttributes) : Slot → Prop
 | .proto md fd=>
  storageFieldName h (appendIdentity parent (fieldIdentitySegment fd.number)) parent md fd =
   .ok (a.name,a.storageNameSource)
 | .synthetic _ _ _ _ _=>True

def Slot.Admitted (files:Files) : Slot → Prop
 | .proto md fd=>
  dataFieldOptions fd=.ok fd.options ∧ validateFixedList files md fd fd.options=.ok () ∧
   validateRefinedSingular files md fd fd.options=.ok () ∧
   ¬(fd.isMap files ∧ fd.options.isSome)
 | .synthetic _ _ _ _ _=>True

structure NodeOk (files:Files) (h:CompilerHistory) (slot:Slot) (parentPath:List UInt32)
  (parent:String) (a:FieldAttributes) (t:DataType) : Prop where
 attributes : a=slot.attributes files (slot.path parentPath) a.name a.storageNameSource a.stableId
 named : slot.Named h parent a
 admitted : slot.Admitted files
 shape : slot.shape files t.children=.ok t
 evolution : validateEvolution h (appendIdentity parent slot.segment) (.mk a t)=.ok ()

mutual

def CompiledField (files:Files) (h:CompilerHistory) :
  Field → ℕ → List String → Slot → List UInt32 → String → Prop
 | .nil,_,_,_,_,_=>False
 | .mk a t,fuel,stack,slot,parentPath,parent=>
  NodeOk files h slot parentPath parent a t ∧
   CompiledType files h t fuel stack (slot.children files) (slot.path parentPath)
    (appendIdentity parent slot.segment)

/-- Only a message uses up fuel and grows the stack of open messages. -/
def CompiledType (files:Files) (h:CompilerHistory) :
  DataType → ℕ → List String → List Slot → List UInt32 → String → Prop
 | .struct p fields,fuel,stack,slots,path,identity=>
  p∉stack ∧ validateStorageNameCollisions p fields=.ok () ∧
   ∃rest,fuel=rest+1 ∧
    CompiledFields files h fields rest (p::stack) slots path identity
 | .list _ element _,fuel,stack,slots,path,identity=>
  ∃s,slots=[s] ∧ CompiledField files h element fuel stack s path identity
 | .map _ key value,fuel,stack,slots,path,identity=>
  ∃s s',slots=[s,s'] ∧
   CompiledField files h key fuel stack s path identity ∧
   CompiledField files h value fuel stack s' path identity
 | _,_,_,slots,_,_=>slots=[]

def CompiledFields (files:Files) (h:CompilerHistory) :
  List Field → ℕ → List String → List Slot → List UInt32 → String → Prop
 | [],_,_,slots,_,_=>slots=[]
 | field::rest,fuel,stack,slots,path,identity=>
  ∃slot more,slots=slot::more ∧
   CompiledField files h field fuel stack slot path identity ∧
   CompiledFields files h rest fuel stack more path identity
end

variable {path:List UInt32} {slot:Slot}
lemma CompiledField.node (hf:CompiledField files h field fuel stack slot path parent) :
 NodeOk files h slot path parent field.attributes field.type := by
 cases field with
 | nil=>exact hf.elim
 | mk a t=>exact hf.1

lemma CompiledField.type (hf:CompiledField files h field fuel stack slot path parent) :
 CompiledType files h field.type fuel stack (slot.children files) (slot.path path)
  (appendIdentity parent slot.segment) := by
 cases field with
 | nil=>exact hf.elim
 | mk a t=>exact hf.2

lemma compiledFields_forall₂ {fields:List Field} {slots:List Slot} {identity:String} :
 CompiledFields files h fields fuel stack slots path identity ↔
  List.Forall₂ (fun s f=>CompiledField files h f fuel stack s path identity) slots fields := by
 induction fields generalizing slots with
 | nil=>simp [CompiledFields]
 | cons field rest ih=>
  simp only [CompiledFields,ih,List.forall₂_cons_right_iff]
  constructor
  · rintro ⟨slot,more,rfl,hf,hr⟩
    exact ⟨slot,more,hf,hr,rfl⟩
  · rintro ⟨slot,more,hf,hr,rfl⟩
    exact ⟨slot,more,rfl,hf,hr⟩

lemma CompiledType.children {t:DataType} {slots:List Slot} {identity:String}
 (ht:CompiledType files h t fuel stack slots path identity) : ∃fuel' stack',List.Forall₂
  (fun s f=>CompiledField files h f fuel' stack' s path identity) slots t.children := by
 cases t with
 | struct p fields=>
  obtain ⟨-,-,rest,-,hf⟩:=ht
  exact ⟨rest,p::stack,compiledFields_forall₂.1 hf⟩
 | list p element n=>
  obtain ⟨s,rfl,he⟩:=ht
  exact ⟨fuel,stack,.cons he .nil⟩
 | map p key value=>
  obtain ⟨s,s',rfl,hk,hv⟩:=ht
  exact ⟨fuel,stack,.cons hk (.cons hv .nil)⟩
 | _=>
  obtain rfl : slots=[]:=ht
  exact ⟨fuel,stack,.nil⟩

/-- Induction over a compiled tree: the node's facts, and the children slot by slot. -/
theorem CompiledField.induction {P:Slot → List UInt32 → String → Field → Prop}
 (hnode:∀slot parentPath parent a t,NodeOk files h slot parentPath parent a t →
  List.Forall₂ (fun s f=>P s (slot.path parentPath) (appendIdentity parent slot.segment) f)
   (slot.children files) t.children → P slot parentPath parent (.mk a t))
 {parentPath:List UInt32} (hf:CompiledField files h field fuel stack slot parentPath parent) :
 P slot parentPath parent field := by
 induction field using Field.tree_induction generalizing fuel stack slot parentPath parent with
 | hnil=>exact hf.elim
 | hmk a t ih=>
  obtain ⟨node,ht⟩:=hf
  obtain ⟨fuel',stack',hc⟩:=ht.children
  refine hnode slot parentPath parent a t node ?_
  rw [List.forall₂_iff_get] at hc ⊢
  refine ⟨hc.1,fun i h₁ h₂=>?_⟩
  exact ih _ (List.get_mem _ _) (hc.2 i h₁ h₂)
end InvariantProtocol.CompiledTree
